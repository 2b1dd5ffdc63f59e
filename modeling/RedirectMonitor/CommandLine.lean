/-
The command line read into settings. The words are taken from left to right; each switch
takes effect when its word, with the value behind it, has been matched as a whole, so the
last value given counts and the first misuse ends the reading. Words that belong to no
switch are collected and refused at the end, and then the settings are checked.
-/

import RedirectMonitor.Settings
import RedirectMonitor.Switch
import RedirectMonitor.Text.Numeral
import RedirectMonitor.Text.Quoted

namespace RedirectMonitor.CommandLine

open RedirectMonitor.Text RedirectMonitor.Switch

/-! ### Why a command line has no settings -/

/-- A command line that the switches do not admit. -/
inductive Misuse where
  | ambiguous (word : Ambiguous)
  /-- A switch without values has something attached. -/
  | ignoredValue (switch : Switch) (value : Word)
  | missingValue (switch : Switch)
  | notWhole (switch : Switch) (value : Word)
  | notReal (switch : Switch) (value : Word)
  | unrecognized (words : List Word)
deriving DecidableEq, Repr

def Misuse.message : Misuse → Word
  | ambiguous word =>
    "ambiguous option: ".toList ++ word.word ++ " could match ".toList ++
      join [',', ' '] word.candidates
  | ignoredValue switch value =>
    "argument ".toList ++ switch.label ++ ": ignored explicit argument ".toList ++
      quoted (codePoints value)
  | missingValue switch => "argument ".toList ++ switch.label ++ ": expected one argument".toList
  | notWhole switch value =>
    "argument ".toList ++ switch.label ++ ": invalid int value: ".toList ++
      quoted (codePoints value)
  | notReal switch value =>
    "argument ".toList ++ switch.label ++ ": invalid float value: ".toList ++
      quoted (codePoints value)
  | unrecognized words => "unrecognized arguments: ".toList ++ join [' '] words

/-- Why a command line has no settings. -/
inductive Stop where
  | help
  | misuse (misuse : Misuse)
  | refused (error : SettingsError)
  /-- A number was given as the mark that ends the switches, which leaves nothing to compare. -/
  | noNumber
deriving DecidableEq, Repr

/-! ### Settings in the making -/

/-- The settings so far, and the switches that left them without a number. -/
structure Draft where
  settings : Settings := {}
  withoutNumber : List Switch := []
deriving Repr

namespace Draft

/-- The draft with a number of its own for a switch. -/
def number (draft : Draft) (switch : Switch) (change : Settings → Settings) : Draft :=
  { settings := change draft.settings
    withoutNumber := draft.withoutNumber.filter (· != switch) }

/-- The draft without a number for a switch. -/
def noNumber (draft : Draft) (switch : Switch) : Draft :=
  { draft with withoutNumber := switch :: draft.withoutNumber }

/-- The draft after an integer was given to a switch. -/
def whole (draft : Draft) (switch : Switch) (value : Word)
    (change : Quantity → Settings → Settings) : Except Stop Draft :=
  if value = endMark then .ok (draft.noNumber switch)
  else match readDecimal? value with
    | some number => .ok (draft.number switch (change (.whole number)))
    | none => .error (.misuse (.notWhole switch value))

/-- The draft after a real number was given to a switch. -/
def real (draft : Draft) (switch : Switch) (value : Word)
    (change : Quantity → Settings → Settings) : Except Stop Draft :=
  if value = endMark then .ok (draft.noNumber switch)
  else match readReal? value with
    | some number => .ok (draft.number switch (change (.real number)))
    | none => .error (.misuse (.notReal switch value))

/-- A value that is text; the mark that ends the switches leaves nothing of it. -/
def given? (value : Word) : Option String :=
  if value = endMark then none else some (.ofList value)

def give (draft : Draft) (switch : Switch) (value : Word) : Except Stop Draft :=
  match switch with
  | .interval =>
    draft.whole switch value fun number settings => { settings with interval := number }
  | .targets =>
    draft.whole switch value fun number settings => { settings with targets := number }
  | .readTimeout =>
    draft.real switch value fun number settings => { settings with readTimeout := some number }
  | .mapDirectory =>
    let directory := (given? value).map PathName.ofString
    .ok { draft with settings := { draft.settings with directory } }
  | .program => .ok { draft with settings := { draft.settings with program := given? value } }
  | .help | .liveView | .debug => .ok draft

/-- The draft after a switch without a value; help ends the reading. -/
def turnOn (draft : Draft) : Switch → Except Stop Draft
  | .help => .error .help
  | .liveView => .ok { draft with settings := { draft.settings with liveView := true } }
  | .debug => .ok { draft with settings := { draft.settings with debug := true } }
  | .mapDirectory | .interval | .targets | .program | .readTimeout => .ok draft

/-- A switch that needs a number has one. -/
def hasNumber (draft : Draft) (switch : Switch) : Except Stop Unit :=
  if draft.withoutNumber.contains switch then .error .noNumber else .ok ()

/-- The settings of a draft, unless one of them is missing or refused. -/
def check (draft : Draft) : Except Stop Settings := do
  draft.hasNumber .interval
  draft.settings.checkInterval.mapError .refused
  draft.hasNumber .targets
  draft.settings.checkTargets.mapError .refused
  draft.hasNumber .readTimeout
  draft.settings.checkReadTimeout.mapError .refused
  pure draft.settings

end Draft

/-! ### Words with several switches -/

/-- The switches of one word: those without a value, and the last one with the value attached. -/
structure Cluster where
  before : List Switch
  last : Switch
  attached : Option Word

/-- The switches of the characters behind a single dash and a switch without value. -/
def cluster (switch : Switch) : Word → Except Misuse Cluster
  | [] => .error (.ignoredValue switch [])
  | first :: rest =>
    match ofSpelling? ['-', first] with
    | none => .error (.ignoredValue switch (first :: rest))
    | some next =>
      if rest = [] then .ok ⟨[switch], next, none⟩
      else if next.takesValue then .ok ⟨[switch], next, some rest⟩
      else (cluster next rest).map fun others => { others with before := switch :: others.before }

/-- The switches of a word. -/
def clusterOf (switch : Switch) (single : Bool) (attached : Option Word) :
    Except Misuse Cluster :=
  match attached with
  | none => .ok ⟨[], switch, none⟩
  | some value =>
    if switch.takesValue then .ok ⟨[], switch, some value⟩
    else if single then cluster switch value
    else .error (.ignoredValue switch value)

/-! ### Reading -/

/-- Switches whose last one waits for its value. -/
structure Waiting where
  before : List Switch
  last : Switch

/-- How far the reading has come. -/
structure Reading where
  draft : Draft := {}
  waiting : Option Waiting := none
  /-- The words that belong to no switch. -/
  others : List Word := []

namespace Reading

/-- The switches of a word take effect, the last one with its value if it has one. -/
def perform (reading : Reading) (before : List Switch) (last : Switch) (value : Option Word) :
    Except Stop Reading := do
  let draft ← before.foldlM Draft.turnOn reading.draft
  let draft ← match value with
    | some value => draft.give last value
    | none => draft.turnOn last
  pure { reading with draft, waiting := none }

/-- One more word that belongs to no switch. -/
def keep (reading : Reading) (word : Word) : Reading :=
  { reading with others := reading.others ++ [word] }

/-- A word that starts with a switch is taken, where no value is waited for. -/
def switch (reading : Reading) (switch : Switch) (single : Bool) (attached : Option Word) :
    Except Stop Reading := do
  let cluster ← (clusterOf switch single attached).mapError .misuse
  if cluster.last.takesValue && cluster.attached.isNone then
    pure { reading with waiting := some ⟨cluster.before, cluster.last⟩ }
  else reading.perform cluster.before cluster.last cluster.attached

/-- One word is taken. -/
def step (reading : Reading) (token : Token) : Except Stop Reading :=
  match reading.waiting, token with
  | some waiting, .plain word => reading.perform waiting.before waiting.last (some word)
  | some waiting, _ => .error (.misuse (.missingValue waiting.last))
  | none, .plain word | none, .unknown word => .ok (reading.keep word)
  | none, .mark => .ok (reading.keep endMark)
  | none, .switch switch single attached => reading.switch switch single attached

/-- The settings when all words are taken. -/
def finish (reading : Reading) : Except Stop Settings :=
  match reading.waiting with
  | some waiting => .error (.misuse (.missingValue waiting.last))
  | none =>
    if reading.others = [] then reading.draft.check
    else .error (.misuse (.unrecognized reading.others))

end Reading

/-- The settings that a command line asks for. -/
def read (words : List Word) : Except Stop Settings := do
  let tokens ← (tokens words).mapError fun word => .misuse (.ambiguous word)
  let reading ← tokens.foldlM Reading.step {}
  reading.finish

end RedirectMonitor.CommandLine
