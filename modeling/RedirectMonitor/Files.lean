/-
What the monitor asks about files: whether a name exists, and whether it is that of a
directory. That there is nothing of a name, or no way to it, is an answer. Any other error
of the file system, such as a directory that may not be searched or a name that is too
long, is none.
-/

import RedirectMonitor.PathName
import RedirectMonitor.Text.Quoted

namespace RedirectMonitor

/-- The file system gives no answer about a name, with an error number and its text. -/
structure FileFault where
  path : PathName
  number : Int
  reason : String
deriving DecidableEq, Repr

def FileFault.message (fault : FileFault) : String :=
  "[Errno " ++ .ofList (Text.decimal fault.number) ++ "] " ++ fault.reason ++ ": " ++
    .ofList (Text.quoted (Text.codePoints fault.path.toChars))

/-- Answers about the files of a system. -/
structure Files where
  contains : PathName → Except FileFault Bool
  isDirectory : PathName → Except FileFault Bool

end RedirectMonitor
