import SimpleLedger.Settings
import SimpleLedger.Proofs.Outcome
import SimpleLedger.Proofs.Settings.Layers
import SimpleLedger.Proofs.Settings.Toml

namespace SimpleLedger.Settings

open Environment

/-- No settings that are loaded have a limit of zero. -/
theorem limits_of_load {file : Option String} {environment : List (String × String)}
    {settings : Settings} (h : load file environment = .ok settings) :
    settings.narrowLimit ≠ 0 ∧ settings.broadLimit ≠ 0 := by
  obtain ⟨said, _, h⟩ := bind_eq_ok_iff.mp h
  simp only [ofValue, bind_eq_ok_iff] at h
  obtain ⟨_, _, _, _, _, _, _, _, _, _, _, _, _, _, _, _, _, _, _, _, h⟩ := h
  split at h
  next => cases h
  next nonzero =>
    cases h
    exact not_or.mp nonzero

/-- The settings, one by one. -/
inductive Setting where
  | bind
  | baseUrl
  | timeoutSeconds
  | narrowLimit
  | broadLimit
deriving DecidableEq

namespace Setting

/-- The key of the section in which a setting stands. -/
def sectionKey : Setting → String
  | bind => "oracle"
  | _ => "indexer"

def key : Setting → String
  | bind => "bind"
  | baseUrl => "base_url"
  | timeoutSeconds => "timeout_seconds"
  | narrowLimit => "narrow_limit"
  | broadLimit => "broad_limit"

def path (setting : Setting) : List String :=
  [setting.sectionKey, setting.key]

/-- The label of the variable for a setting, in lower case. -/
def label (setting : Setting) : String :=
  "slp_oracle_" ++ setting.sectionKey ++ "__" ++ setting.key

/-- The value of a setting of which nothing is said. -/
def standard : Setting → Value
  | bind => .text "0.0.0.0:8078"
  | baseUrl => .text "https://slpdb.fountainhead.cash/q/"
  | timeoutSeconds => .int 60
  | narrowLimit => .int 1
  | broadLimit => .int 10000

def IsLimit (setting : Setting) : Prop :=
  setting = narrowLimit ∨ setting = broadLimit

/-- What a value gives for a setting: a text or a whole word. -/
def converted? (value : Value) : Setting → Option (String ⊕ Nat)
  | bind => value.text?.map .inl
  | baseUrl => value.text?.map .inl
  | timeoutSeconds => value.word?.map .inr
  | narrowLimit => value.word?.map .inr
  | broadLimit => value.word?.map .inr

def inSettings (settings : Settings) : Setting → String ⊕ Nat
  | bind => .inl settings.bind
  | baseUrl => .inl settings.baseUrl
  | timeoutSeconds => .inr settings.timeoutSeconds
  | narrowLimit => .inr settings.narrowLimit
  | broadLimit => .inr settings.broadLimit

/-- The text of the variable for a setting, whose label may be in letters of any case. -/
def inEnvironment? (environment : List (String × String)) (setting : Setting) : Option String :=
  (environment.find? fun entry => folded entry.1 = setting.label.toList).map Prod.snd

/-- What the root of a file says of a setting. A table at its place says nothing. -/
def inFile? (root : Value) (setting : Setting) : Option Value :=
  root.leaf? setting.path

/-- The value that is chosen for a setting: that of its variable, or of the file, or the default. -/
def chosen (root : Value) (environment : List (String × String)) (setting : Setting) : Value :=
  match setting.inEnvironment? environment with
  | some text => Environment.value text
  | none => (setting.inFile? root).getD setting.standard

end Setting

/-- A file, if there is one, holds the entries of this table. -/
def Holds (file : Option String) (root : Value) : Prop :=
  match file with
  | none => root = .table []
  | some text => Toml.read? text = some root

/-- A file with keys in lower case, and an environment with labels that differ in more than their
case, none of which goes above or below a setting. -/
structure Untangled (file : Option String) (root : Value) (environment : List (String × String)) :
    Prop where
  holds : Holds file root
  lowerKeyed : LowerKeyed root
  sections : ∀ (setting : Setting) value, root.under? [setting.sectionKey] = some value →
    value.isTable
  ends : ∀ (setting : Setting) keys, keys ≠ [] → root.under? (setting.path ++ keys) = none
  plain : ∀ entry ∈ environment, IsLabel entry.1
  different : environment.Pairwise fun one other => folded one.1 ≠ folded other.1
  aside : ∀ entry ∈ environment, ∀ keys, Names entry.1 keys → ∀ setting : Setting,
    keys <+: setting.path ∨ setting.path <+: keys → keys = setting.path

namespace Setting

variable {label : String} {keys : List String}

theorem isLowerKey_of_mem_path (setting : Setting) : ∀ key ∈ setting.path, IsLowerKey key := by
  cases setting <;> decide

theorem names_path_iff (setting : Setting) :
    Names label setting.path ↔ folded label = setting.label.toList := by
  have parted : Parted (setting.sectionKey.toList ++ '_' :: '_' :: setting.key.toList)
      (setting.path.map String.toList) := by
    refine .cut ?_ (.whole ?_) <;> cases setting <;> decide
  have spelled : setting.label.toList = "slp_oracle_".toList ++
      (setting.sectionKey.toList ++ '_' :: '_' :: setting.key.toList) := by
    cases setting <;> decide
  have filled : "" ∉ setting.path := by cases setting <;> decide
  rw [spelled]
  constructor
  · rintro ⟨_, text, same, parts⟩
    rw [same, parts.two_eq]
  · exact fun same => ⟨filled, _, same, parted⟩

end Setting

variable {file : Option String} {root : Value} {environment : List (String × String)}

theorem Holds.sound (h : Holds file root) :
    ofFile file = .ok root.entries ∧ root.isTable ∧ root.Distinct := by
  cases file with
  | none =>
    obtain rfl : root = .table [] := h
    exact ⟨rfl, rfl, Value.distinct_empty⟩
  | some text =>
    have read : Toml.read? text = some root := h
    refine ⟨?_, (Option.filter_eq_some_iff.mp read).2, Toml.distinct_read? read⟩
    rw [ofFile, read]

theorem Untangled.clear (h : Untangled file root environment) (setting : Setting) :
    root.Clear setting.path := by
  refine ⟨fun front key rest inner same found => ?_, fun inner found kind => ?_⟩
  · match front with
    | [] =>
      cases found
      exact h.holds.sound.2.1
    | [one] =>
      obtain ⟨rfl, _⟩ := List.cons.inj same
      exact h.sections setting inner found
    | one :: two :: more => simp [Setting.path] at same
  · cases inner with
    | table entries =>
      cases entries with
      | nil => rfl
      | cons entry entries =>
        have deeper := h.ends setting [entry.1] (List.cons_ne_nil _ _)
        rw [Value.under?_append, found] at deeper
        simp [Value.entries] at deeper
    | _ => cases kind

/-- The settings are those of a table that holds the value chosen for each. -/
theorem Untangled.load_eq (h : Untangled file root environment) : ∃ whole : Value,
    load file environment = ofValue whole ∧
      ∀ setting : Setting, whole.under? setting.path = some (setting.chosen root environment) := by
  obtain ⟨read, isTable, distinct⟩ := h.holds.sound
  let said := environment.foldl withVariable ((Value.table []).merge root)
  refine ⟨defaultLayer.merge said, ?_, fun setting => ?_⟩
  · rw [load, read]
    have laid := ofNamed_entries_append h.lowerKeyed isTable environment
    exact congrArg (fun value => ofValue (defaultLayer.merge value)) laid
  · have filled : setting.path ≠ [] := List.cons_ne_nil _ _
    have clear := h.clear setting
    obtain ⟨clear', distinct', found⟩ := (clear.empty_merge distinct filled).withVariables
      (Value.distinct_empty.merge distinct) setting.isLowerKey_of_mem_path filled h.plain
      h.different (fun entry mem keys named => h.aside entry mem keys named setting)
      (fun label => setting.names_path_iff)
    have standard : defaultLayer.under? setting.path = some setting.standard := by
      cases setting <;> rfl
    rw [clear'.under?_merge_leaf distinct' standard, Value.leaf?, found,
      clear.under?_empty_merge distinct filled, Setting.chosen, Setting.inEnvironment?]
    cases environment.find? fun entry => folded entry.1 = setting.label.toList with
    | none => rfl
    | some entry =>
      rw [Option.filter_some, (plain_value entry.2).1]
      rfl

namespace Section

variable {α : Type} {part : Section} {value : Value} {n : Nat} {name : String}

theorem typed_eq_ok_iff (named : part.names[n]? = some name)
    (found : root.under? [part.key, name] = some value) {type : Value → Option α}
    {setting : Option α} :
    part.typed root n type = .ok setting ↔ ∃ x, type value = some x ∧ setting = some x := by
  obtain ⟨entries, inside, known⟩ := Value.under?_pair_iff.mp found
  have all : part.values root = .ok (part.names.map fun name =>
      (entries.lookup name).map fun value => (part.key ++ "." ++ name, value)) := by
    rw [values, inside]
  have here : (part.names.map fun name => (entries.lookup name).map fun value =>
      (part.key ++ "." ++ name, value))[n]? = some (some (part.key ++ "." ++ name, value)) := by
    rw [List.getElem?_map, named, Option.map_some, known]
    rfl
  rw [typed, all]
  dsimp only [Bind.bind, Except.bind]
  rw [here]
  dsimp only
  cases typed : type value with
  | none => simp
  | some x => simp [eq_comm]

theorem need_eq_ok_iff {setting : Option α} {x : α} :
    part.need root n setting = .ok x ↔ setting = some x := by
  cases setting <;> simp [need]

end Section

/-- The settings are what values give, each for its own. -/
def Gives (value : Setting → Value) (settings : Settings) : Prop :=
  ∀ setting : Setting, setting.converted? (value setting) = some (setting.inSettings settings)

theorem gives_iff {value : Setting → Value} {settings : Settings} : Gives value settings ↔
    (value .bind).text? = some settings.bind ∧ (value .baseUrl).text? = some settings.baseUrl ∧
      (value .timeoutSeconds).word? = some settings.timeoutSeconds ∧
      (value .narrowLimit).word? = some settings.narrowLimit ∧
      (value .broadLimit).word? = some settings.broadLimit := by
  constructor
  · intro h
    have bind := h .bind
    have baseUrl := h .baseUrl
    have timeoutSeconds := h .timeoutSeconds
    have narrowLimit := h .narrowLimit
    have broadLimit := h .broadLimit
    simp only [Setting.converted?, Setting.inSettings, Option.map_eq_some_iff, Sum.inl.injEq,
      Sum.inr.injEq, exists_eq_right] at bind baseUrl timeoutSeconds narrowLimit broadLimit
    exact ⟨bind, baseUrl, timeoutSeconds, narrowLimit, broadLimit⟩
  · rintro ⟨bind, baseUrl, timeoutSeconds, narrowLimit, broadLimit⟩ setting
    cases setting with
    | bind => exact congrArg (Option.map Sum.inl) bind
    | baseUrl => exact congrArg (Option.map Sum.inl) baseUrl
    | timeoutSeconds => exact congrArg (Option.map Sum.inr) timeoutSeconds
    | narrowLimit => exact congrArg (Option.map Sum.inr) narrowLimit
    | broadLimit => exact congrArg (Option.map Sum.inr) broadLimit

/-- The settings in a table of which the value for each is known. -/
theorem ofValue_eq_ok_iff {value : Setting → Value}
    (found : ∀ setting : Setting, root.under? setting.path = some (value setting))
    {settings : Settings} : ofValue root = .ok settings ↔
      Gives value settings ∧ settings.narrowLimit ≠ 0 ∧ settings.broadLimit ≠ 0 := by
  have typed {α : Type} (setting : Setting) (part : Section) (n : Nat) {type : Value → Option α}
      {x : Option α} (named : part.names[n]? = some setting.key)
      (inside : part.key = setting.sectionKey) :
      part.typed root n type = .ok x ↔ ∃ y, type (value setting) = some y ∧ x = some y :=
    Section.typed_eq_ok_iff named (inside ▸ found setting)
  simp only [ofValue, bind_eq_ok_iff, Section.need_eq_ok_iff, typed .bind oracleSection 0 rfl rfl,
    typed .baseUrl indexerSection 0 rfl rfl, typed .timeoutSeconds indexerSection 1 rfl rfl,
    typed .narrowLimit indexerSection 2 rfl rfl, typed .broadLimit indexerSection 3 rfl rfl]
  rw [gives_iff]
  constructor
  · rintro ⟨_, ⟨bind, bind_eq, rfl⟩, _, ⟨⟩, _, ⟨baseUrl, baseUrl_eq, rfl⟩, _,
      ⟨timeout, timeout_eq, rfl⟩, _, ⟨narrow, narrow_eq, rfl⟩, _, ⟨broad, broad_eq, rfl⟩, _, ⟨⟩, _,
      ⟨⟩, _, ⟨⟩, _, ⟨⟩, h⟩
    split at h
    next => cases h
    next nonzero =>
      cases h
      exact ⟨⟨bind_eq, baseUrl_eq, timeout_eq, narrow_eq, broad_eq⟩, not_or.mp nonzero⟩
  · rintro ⟨⟨bind, baseUrl, timeout, narrow, broad⟩, nonzero⟩
    exact ⟨_, ⟨_, bind, rfl⟩, _, rfl, _, ⟨_, baseUrl, rfl⟩, _, ⟨_, timeout, rfl⟩, _,
      ⟨_, narrow, rfl⟩, _, ⟨_, broad, rfl⟩, _, rfl, _, rfl, _, rfl, _, rfl,
      if_neg (not_or.mpr nonzero)⟩

/-- Values that can all be converted give settings. -/
theorem exists_gives {value : Setting → Value}
    (h : ∀ setting : Setting, setting.converted? (value setting) ≠ none) :
    ∃ settings, Gives value settings := by
  have some {α β : Type} {given : Option α} {f : α → β} (h : given.map f ≠ none) :
      ∃ x, given = some x := Option.ne_none_iff_exists'.mp (mt Option.map_eq_none_iff.mpr h)
  obtain ⟨bind, bind_eq⟩ := some (h .bind)
  obtain ⟨baseUrl, baseUrl_eq⟩ := some (h .baseUrl)
  obtain ⟨timeout, timeout_eq⟩ := some (h .timeoutSeconds)
  obtain ⟨narrow, narrow_eq⟩ := some (h .narrowLimit)
  obtain ⟨broad, broad_eq⟩ := some (h .broadLimit)
  exact ⟨⟨bind, baseUrl, timeout, narrow, broad⟩,
    gives_iff.mpr ⟨bind_eq, baseUrl_eq, timeout_eq, narrow_eq, broad_eq⟩⟩

theorem limits_ne_zero_iff {settings : Settings} :
    settings.narrowLimit ≠ 0 ∧ settings.broadLimit ≠ 0 ↔
      ∀ setting : Setting, setting.IsLimit → setting.inSettings settings ≠ .inr 0 := by
  constructor
  · rintro ⟨narrow, broad⟩ setting (rfl | rfl) zero
    · exact narrow (Sum.inr.inj zero)
    · exact broad (Sum.inr.inj zero)
  · intro h
    exact ⟨fun zero => h .narrowLimit (.inl rfl) (congrArg Sum.inr zero),
      fun zero => h .broadLimit (.inr rfl) (congrArg Sum.inr zero)⟩

theorem Untangled.load_eq_ok_iff {settings : Settings} (h : Untangled file root environment) :
    load file environment = .ok settings ↔
      Gives (Setting.chosen root environment) settings ∧
        settings.narrowLimit ≠ 0 ∧ settings.broadLimit ≠ 0 := by
  obtain ⟨whole, same, found⟩ := h.load_eq
  rw [same, ofValue_eq_ok_iff found]

theorem Untangled.exists_load_error_iff (h : Untangled file root environment) :
    (∃ error, load file environment = .error error) ↔
      ∃ setting : Setting, setting.converted? (setting.chosen root environment) = none ∨
        setting.IsLimit ∧ setting.converted? (setting.chosen root environment) = some (.inr 0) := by
  constructor
  · rintro ⟨error, failed⟩
    by_contra sound
    rw [not_exists] at sound
    obtain ⟨settings, gives⟩ := exists_gives fun setting none => sound setting (.inl none)
    have nonzero := limits_ne_zero_iff.mpr fun setting limit zero =>
      sound setting (.inr ⟨limit, zero ▸ gives setting⟩)
    rw [h.load_eq_ok_iff.mpr ⟨gives, nonzero⟩] at failed
    cases failed
  · rintro ⟨setting, wrong⟩
    cases loaded : load file environment with
    | error error => exact ⟨error, rfl⟩
    | ok settings =>
      obtain ⟨gives, nonzero⟩ := h.load_eq_ok_iff.mp loaded
      have converted := gives setting
      rcases wrong with none | ⟨limit, zero⟩
      · rw [none] at converted
        cases converted
      · rw [zero] at converted
        have same : .inr 0 = setting.inSettings settings := Option.some.inj converted
        exact absurd same.symm (limits_ne_zero_iff.mp nonzero setting limit)

/-- Every setting is the value that is chosen for it, in its type, and there are no settings if one of
these values is not of the type or a limit is zero. What else the file and the environment say makes
no difference to it. -/
theorem load_each_setting {file : Option String} {root : Value}
    {environment : List (String × String)} (h : Untangled file root environment) :
    (∀ settings, load file environment = .ok settings ↔
      (∀ setting : Setting, setting.converted? (setting.chosen root environment) =
        some (setting.inSettings settings)) ∧
      settings.narrowLimit ≠ 0 ∧ settings.broadLimit ≠ 0) ∧
    ((∃ error, load file environment = .error error) ↔
      ∃ setting : Setting, setting.converted? (setting.chosen root environment) = none ∨
        setting.IsLimit ∧ setting.converted? (setting.chosen root environment) = some (.inr 0)) ∧
    ∀ file' root' environment', Untangled file' root' environment' →
      ∀ setting : Setting,
        setting.inEnvironment? environment' = setting.inEnvironment? environment →
        setting.inFile? root' = setting.inFile? root →
        ∀ settings settings', load file environment = .ok settings →
          load file' environment' = .ok settings' →
          setting.inSettings settings' = setting.inSettings settings := by
  refine ⟨fun settings => h.load_eq_ok_iff, h.exists_load_error_iff, ?_⟩
  intro file' root' environment' h' setting texts values settings settings' loaded loaded'
  have gives := (h.load_eq_ok_iff.mp loaded).1 setting
  have gives' := (h'.load_eq_ok_iff.mp loaded').1 setting
  have same : setting.chosen root' environment' = setting.chosen root environment := by
    rw [Setting.chosen, Setting.chosen, texts, values]
  rw [same, gives] at gives'
  exact (Option.some.inj gives').symm

/-- A file in which both sections stand, one with a limit of zero. -/
def fileOfZero : String :=
  "[oracle]\nbind = 'h' # here\n[indexer]\nbroad_limit = false"

/-- An environment with another limit. -/
def environmentOfSeven : List (String × String) :=
  [("PATH", "/bin"), ("slp_Oracle_INDEXER__broad_limit", "07")]

/-- The tables that the file holds. -/
def rootOfZero : Value :=
  .table [("oracle", .table [("bind", .text "h")]), ("indexer", .table [("broad_limit", .bool false)])]

open Toml in
theorem read?_fileOfZero : Toml.read? fileOfZero = some rootOfZero := by
  let oracle : Draft :=
    ⟨.table [("oracle", .table [])], [.key "oracle"], [[.key "oracle"]], [], [], []⟩
  let bound : Draft := { oracle with root := .table [("oracle", .table [("bind", .text "h")])] }
  let indexer : Draft :=
    ⟨.table [("oracle", .table [("bind", .text "h")]), ("indexer", .table [])], [.key "indexer"],
      [[.key "indexer"], [.key "oracle"]], [], [], []⟩
  let limited : Draft := { indexer with root := rootOfZero }
  have first : line? Draft.empty fileOfZero.toList =
      some (oracle, "bind = 'h' # here\n[indexer]\nbroad_limit = false".toList) := by
    have named : key? depthLimit "oracle]\nbind = 'h' # here\n[indexer]\nbroad_limit = false".toList =
      some (["oracle"], ']' :: "\nbind = 'h' # here\n[indexer]\nbroad_limit = false".toList) := rfl
    exact line?_header (by decide) named rfl rfl
  have second : line? oracle "bind = 'h' # here\n[indexer]\nbroad_limit = false".toList =
      some (bound, "[indexer]\nbroad_limit = false".toList) := by
    have named : key? depthLimit "bind = 'h' # here\n[indexer]\nbroad_limit = false".toList =
      some (["bind"], '=' :: " 'h' # here\n[indexer]\nbroad_limit = false".toList) := rfl
    have given : value? 84 depthLimit "'h' # here\n[indexer]\nbroad_limit = false".toList =
      some (.text "h", " # here\n[indexer]\nbroad_limit = false".toList) := rfl
    exact line?_entry (by decide) named given rfl rfl
  have third : line? bound "[indexer]\nbroad_limit = false".toList =
      some (indexer, "broad_limit = false".toList) := by
    have named : key? depthLimit "indexer]\nbroad_limit = false".toList =
      some (["indexer"], ']' :: "\nbroad_limit = false".toList) := rfl
    exact line?_header (by decide) named rfl rfl
  have fourth : line? indexer "broad_limit = false".toList = some (limited, []) := by
    have named : key? depthLimit "broad_limit = false".toList =
      some (["broad_limit"], '=' :: " false".toList) := rfl
    have given : value? 14 depthLimit "false".toList = some (.bool false, []) := rfl
    exact line?_entry (by decide) named given rfl rfl
  have all : lines? 56 Draft.empty fileOfZero.toList = some rootOfZero := by
    rw [lines?_line rfl (by decide) first, lines?_line rfl (by decide) second,
      lines?_line rfl (by decide) third, lines?_line rfl (by decide) fourth]
    rfl
  exact read?_of_lines rfl (by decide) all rfl rfl

theorem untangled_fileOfZero : Untangled (some fileOfZero) rootOfZero environmentOfSeven where
  holds := read?_fileOfZero
  lowerKeyed := by
    refine .table (by decide) ?_
    simp only [List.forall_mem_cons]
    refine ⟨.table (by decide) ?_, .table (by decide) ?_, List.forall_mem_nil _⟩
    · exact List.forall_mem_singleton.mpr (.other rfl)
    · exact List.forall_mem_singleton.mpr (.other rfl)
  sections := by
    intro setting value found
    cases setting <;> cases found <;> rfl
  ends := by
    intro setting keys filled
    rw [Value.under?_append]
    cases setting <;> first | rfl | exact Value.under?_of_not_isTable rfl filled
  plain := by decide
  different := by decide
  aside := by
    simp only [environmentOfSeven, List.forall_mem_cons]
    refine ⟨?_, ?_, List.forall_mem_nil _⟩
    · rintro keys ⟨_, text, same, _⟩
      cases same
    · intro keys named setting near
      have own : Names "slp_Oracle_INDEXER__broad_limit" Setting.broadLimit.path :=
        Setting.broadLimit.names_path_iff.mpr (by decide)
      obtain rfl := named.unique own (by decide)
      cases setting <;> first | rfl | exact absurd near (by decide)

theorem load_each_setting_of_replaced_zero :
    load (some fileOfZero) environmentOfSeven =
      .ok ⟨"h", "https://slpdb.fountainhead.cash/q/", 60, 1, 7⟩ := by
  refine ((load_each_setting untangled_fileOfZero).1 _).mpr ⟨fun setting => ?_, by decide, by decide⟩
  cases setting <;> rfl

open Toml in
theorem read?_empty_table : Toml.read? "[indexer.narrow_limit]" =
    some (.table [("indexer", .table [("narrow_limit", .table [])])]) := by
  let opened : Draft :=
    ⟨.table [("indexer", .table [("narrow_limit", .table [])])], [.key "indexer", .key "narrow_limit"],
      [[.key "indexer", .key "narrow_limit"]], [], [], []⟩
  have line : line? Draft.empty "[indexer.narrow_limit]".toList = some (opened, []) := by
    have named : key? depthLimit "indexer.narrow_limit]".toList =
      some (["indexer", "narrow_limit"], [']']) := rfl
    exact line?_header (by decide) named rfl rfl
  have all : lines? 22 Draft.empty "[indexer.narrow_limit]".toList = some opened.root := by
    rw [lines?_line rfl (by decide) line]
    rfl
  exact read?_of_lines rfl (by decide) all rfl rfl

theorem untangled_empty_table : Untangled (some "[indexer.narrow_limit]")
    (.table [("indexer", .table [("narrow_limit", .table [])])]) [] where
  holds := read?_empty_table
  lowerKeyed := by
    refine .table (by decide) (List.forall_mem_singleton.mpr ?_)
    refine .table (by decide) (List.forall_mem_singleton.mpr ?_)
    exact .table (List.forall_mem_nil _) (List.forall_mem_nil _)
  sections := by
    intro setting value found
    cases setting <;> cases found <;> rfl
  ends := by
    intro setting keys filled
    rw [Value.under?_append]
    cases setting <;> first | rfl | exact Value.under?_table_nil filled
  plain := List.forall_mem_nil _
  different := .nil
  aside := List.forall_mem_nil _

/-- A table without entries cannot be converted, and still the setting at its key has its default. -/
theorem load_of_empty_table :
    (∃ root, Untangled (some "[indexer.narrow_limit]") root [] ∧
      root.under? Setting.narrowLimit.path = some (.table []) ∧
      Setting.narrowLimit.inEnvironment? [] = none ∧
      Setting.narrowLimit.converted? (.table []) = none) ∧
    load (some "[indexer.narrow_limit]") [] = .ok Settings.default := by
  refine ⟨⟨_, untangled_empty_table, rfl, rfl, rfl⟩, ?_⟩
  refine untangled_empty_table.load_eq_ok_iff.mpr ⟨fun setting => ?_, by decide, by decide⟩
  cases setting <;> rfl

end SimpleLedger.Settings
