import QueryPipeline.Ledger
import QueryPipeline.Page
import QueryPipeline.Sorting

/-! Settings: what a query compiler is configured with, as given and as read. -/

namespace QueryPipeline

/-- What a setting is set to: a value, or the fields of a ledger. -/
inductive Setting where
  | value (v : Value)
  | ledger (l : Ledger)

/-- A setting as a value. -/
def Setting.toValue : Setting → Value
  | .value v => v
  | .ledger l => l.toValue

/-- Settings by name, as they were given. -/
abbrev SettingMap := Entries String Setting

/-- The name of the setting that enables a section. -/
def Section.enabledName (part : Section) : String :=
  part.name ++ "_enabled"

/-- All settings, each with a value. -/
structure Settings where
  ownerField : Value
  lenient : Value
  defaultSortField : Value
  defaultSortDirection : Value
  maxItems : Value
  runningBalance : Setting
  enabled : Section → Value

namespace Settings

/-- What the settings are set to unless they are given, in the map of all settings. -/
def defaults : SettingMap :=
  [("owner_field", .value (.text "userId")), ("lenient", .value (.bool true)),
    ("default_sort_field", .value (.text "_id")),
    ("default_sort_direction", .value (.text "desc")), ("max_items", .value .null),
    ("running_balance", .value .null), ("filter_enabled", .value (.bool true)),
    ("sort_enabled", .value (.bool true)), ("limit_enabled", .value (.bool true)),
    ("balance_enabled", .value (.bool true))]

/-- The settings that a section looks at, and what it takes them for unless they are given. -/
def declared : Section → SettingMap
  | .balance => [("running_balance", .value .null), ("owner_field", .value (.text "userId"))]
  | .filter => [("owner_field", .value (.text "userId")), ("lenient", .value (.bool true))]
  | .sort => [("default_sort_field", .value (.text "_id")),
      ("default_sort_direction", .value (.text "desc")), ("lenient", .value (.bool true))]
  | .limit => [("max_items", .value .null), ("lenient", .value (.bool true))]

/-- The settings that are looked at for the query as a whole. -/
def overall : SettingMap :=
  ("lenient", .value (.bool true)) ::
    Section.all.map fun part => (part.enabledName, .value (.bool true))

/-- All settings that are looked at. Those that more than one section looks at occur more than once,
each time with the same value. -/
def known : SettingMap :=
  Section.all.flatMap declared ++ overall

/-- The names in a map that are not in another one, in order. -/
def others (among given : SettingMap) : List String :=
  ((Entries.keys given).filter fun name => !among.has name).mergeSort fun a b => decide (a ≤ b)

/-- The settings of a map that nobody looks at, in order. -/
def unknown (given : SettingMap) : List String :=
  others known given

/-- What a setting is set to. -/
def setting (given : SettingMap) (name : String) : Setting :=
  (given.get? name).getD ((known.get? name).getD (.value .null))

/-- Reads settings: what is not given has its usual value. -/
def ofMap (given : SettingMap) : Settings :=
  let value (name : String) := (setting given name).toValue
  { ownerField := value "owner_field"
    lenient := value "lenient"
    defaultSortField := value "default_sort_field"
    defaultSortDirection := value "default_sort_direction"
    maxItems := value "max_items"
    runningBalance := setting given "running_balance"
    enabled := fun part => value part.enabledName }

/-- The map of all settings, with the given ones. Names that are no settings are refused. -/
def documented (given : SettingMap) : Except Fault SettingMap :=
  match others defaults given with
  | [] => .ok (Entries.merge defaults given)
  | names => .error (.misuse (.unknownSettings names))

/-- A map of all settings with more of them set. -/
def extended (all more : SettingMap) : Except Fault SettingMap :=
  documented (Entries.merge all more)

/-- The settings that a section looks at, as it finds them. -/
def ofSection (given : SettingMap) (part : Section) : SettingMap :=
  (declared part).map fun (name, usual) => (name, (given.get? name).getD usual)

/-- Settings for one section alone, which has no use for any other. -/
def onlyFor (part : Section) (given : SettingMap) : Except Fault Settings :=
  match (Entries.keys given).filter fun name => !(declared part).has name with
  | [] => .ok (ofMap given)
  | others => .error (.misuse (.unknownSettings others))

/-- Whether a section takes input. -/
def isEnabled (s : Settings) (part : Section) : Bool :=
  (s.enabled part).isTruthy

/-- Whether input is read leniently. -/
def isLenient (s : Settings) : Bool :=
  s.lenient.isTruthy

/-- The fields of the ledger, if there is one. -/
def ledger? (s : Settings) : Except Fault (Option Ledger) :=
  match s.runningBalance with
  | .ledger l => .ok (some l)
  | .value .null => .ok none
  | .value (.object entries) => (Ledger.ofEntries entries).map some
  | .value _ => .error (.misuse .ledgerNotFields)

/-- How the sort section is read. -/
def sorting (s : Settings) : Sorting.Rules :=
  { defaultField := s.defaultSortField, defaultDirection := s.defaultSortDirection
    lenient := s.isLenient }

/-- How the limit section is read. -/
def paging (s : Settings) : Page.Rules :=
  { cap := s.maxItems, lenient := s.isLenient }

/-- The fault of using a section that is disabled. -/
def requireEnabled (s : Settings) (collection : String) (part : Section) : Except Fault Unit :=
  if s.isEnabled part then .ok ()
  else .error (.invalid (.sectionDisabled part collection))

/-- The fault of giving what is no setting; `owner` says whose settings they are. -/
def requireKnown (owner : String) (given : SettingMap) : Except Fault Unit :=
  match unknown given with
  | [] => .ok ()
  | names => .error (.invalidSettings owner names)

end Settings

end QueryPipeline
