import Mathlib.Data.List.Nodup
import Mathlib.Data.List.TakeDrop
import SimpleLedger.Command.Arguments
import SimpleLedger.Proofs.Text.Blank

namespace SimpleLedger.Command

/-- The options of a sampling that take a value. -/
def flagNames : List String :=
  ["base-url", "output", "narrow-limit", "broad-limit", "only"]

/-- A value that can stand in an argument of its own: it does not look like an option. -/
def IsApart (value : String) : Prop :=
  ∀ c rest, value.toList ≠ '-' :: c :: rest

/-- The arguments that give an option its value. Only one option has a letter. -/
inductive Flag : List String → String → String → Prop
  | apart {name value : String} : name ∈ flagNames → IsApart value →
    Flag ["--" ++ name, value] name value
  | joined {name value : String} : name ∈ flagNames → Flag ["--" ++ name ++ "=" ++ value] name value
  | letterApart {value : String} : IsApart value → Flag ["-o", value] "output" value
  | letterJoined {value : String} : value ≠ "" → value.toList.head? ≠ some '=' →
    Flag ["-o" ++ value] "output" value
  | letterEquals {value : String} : Flag ["-o=" ++ value] "output" value

/-- Arguments that give options their values, one option after the other. A separator with nothing
after it may end them. -/
inductive Flags : List String → List (String × String) → Prop
  | nil : Flags [] []
  | separator : Flags ["--"] []
  | cons {front rest : List String} {name value : String} {options : List (String × String)} :
    Flag front name value → Flags rest options → Flags (front ++ rest) ((name, value) :: options)

/-- What is asked for by options: limits are whole words, the name of a category may be in letters of
any case, and that of a file is not empty. -/
structure Asked (options : List (String × String)) (request : SampleRequest) : Prop where
  baseUrl : request.baseUrl = options.lookup "base-url"
  output : request.output = options.lookup "output"
  named : request.output ≠ some ""
  narrowLimit : Option.Rel (fun text limit => Text.word? text = some limit)
    (options.lookup "narrow-limit") request.narrowLimit
  broadLimit : Option.Rel (fun text limit => Text.word? text = some limit)
    (options.lookup "broad-limit") request.broadLimit
  only : Option.Rel (fun text category => text.toList.map Char.toLower = category.name.toList)
    (options.lookup "only") request.only

/-- The arguments, after the name of the command, ask for a sampling. -/
def Asks (arguments : List String) (request : SampleRequest) : Prop :=
  ∃ options, Flags arguments options ∧ (options.map Prod.fst).Nodup ∧ Asked options request

theorem Flag.length_pos {front : List String} {name value : String} (h : Flag front name value) :
    0 < front.length := by
  cases h <;> simp

section Values

variable {α : Type} {given : Given} {name : String}

theorem valueBy?_eq_some_iff {reading : String → Option α} {found : Option α} :
    Task.valueBy? given name reading = some found ↔
      Option.Rel (fun text value => reading text = some value) (given.options.lookup name) found := by
  unfold Task.valueBy?
  cases given.options.lookup name with
  | none => cases found <;> simp
  | some text => cases found <;> simp [Option.rel_some_some]

theorem ofName?_eq_some_iff {text : String} {category : Corpus.Category} :
    Corpus.Category.ofName? text = some category ↔
      text.toList.map Char.toLower = category.name.toList := by
  unfold Corpus.Category.ofName?
  constructor
  · intro found
    have same := List.find?_some found
    exact (eq_of_beq same).symm
  · intro spelled
    rw [spelled]
    cases category <;> decide

end Values

namespace OptionSpec

variable {given last : Given} {spec : OptionSpec} {argument name value : String}
  {arguments : List String} {options : List (String × String)}

theorem isValue_iff : isValue value = true ↔ IsApart value := by
  unfold isValue IsApart
  split
  next c rest eq => simp [eq]
  next plain => simpa using plain

theorem shape_eq_separator (h : shape argument = .separator) : argument = "--" := by
  unfold shape at h
  split at h
  next eq => exact String.toList_inj.mp eq
  next => cases h
  next => cases h
  next => cases h

theorem shape_eq_letters {letters : List Char} (h : shape argument = .letters letters) :
    letters ≠ [] ∧ argument.toList = '-' :: letters := by
  unfold shape at h
  split at h
  next => cases h
  next => cases h
  next eq =>
    cases h
    exact ⟨List.cons_ne_nil _ _, eq⟩
  next => cases h

theorem shape_eq_long {value : Option String} (h : shape argument = .long name value) :
    argument = "--" ++ name ++ (value.map ("=" ++ ·)).getD "" := by
  unfold shape at h
  split at h
  next => cases h
  next rest _ eq =>
    rw [List.span_eq_takeWhile_dropWhile] at h
    cases h
    have parts := List.takeWhile_append_dropWhile (p := fun c => c != '=') (l := rest)
    rw [← String.toList_inj, eq]
    -- what stands from the equals sign on is the value, if one stands there
    cases tail : rest.dropWhile fun c => c != '=' with
    | nil =>
      rw [tail, List.append_nil] at parts
      simp [String.toList_append, parts]
    | cons c after =>
      have stop := List.head?_dropWhile_not (fun c => c != '=') rest
      rw [tail] at stop parts
      obtain rfl : c = '=' := by simpa using stop
      simp [String.toList_append, parts]
  next => cases h
  next => cases h

theorem shape_long (known : name ∈ flagNames) : shape ("--" ++ name) = .long name none := by
  simp only [flagNames, List.mem_cons, List.not_mem_nil, or_false] at known
  rcases known with rfl | rfl | rfl | rfl | rfl <;> rfl

theorem shape_joined (known : name ∈ flagNames) (value : String) :
    shape ("--" ++ name ++ "=" ++ value) = .long name (some value) := by
  have filled : name.toList ≠ [] ∧ ∀ c ∈ name.toList, (c != '=') = true := by
    simp only [flagNames, List.mem_cons, List.not_mem_nil, or_false] at known
    rcases known with rfl | rfl | rfl | rfl | rfl <;>
      exact ⟨by decide, List.all_eq_true.mp (by decide)⟩
  have stop : ∀ c ∈ ('=' :: value.toList).head?, (c != '=') = false := by
    rintro c ⟨⟩
    rfl
  have whole : ("--" ++ name ++ "=" ++ value).toList =
      '-' :: '-' :: (name.toList ++ '=' :: value.toList) := by
    simp [String.toList_append]
  rw [shape, whole]
  split
  next eq => simp [filled.1] at eq
  next rest _ eq =>
    obtain rfl : name.toList ++ '=' :: value.toList = rest := by simpa using eq
    rw [List.span_eq_takeWhile_dropWhile, Text.takeWhile_append_stop filled.2 stop,
      Text.dropWhile_append_stop filled.2 stop]
    simp
  next single eq => exact absurd (List.cons.inj (List.cons.inj eq).2).1.symm single
  next none => exact (none _ _ rfl).elim

theorem shape_letter (value : String) : shape ("-o" ++ value) = .letters ('o' :: value.toList) := by
  have whole : ("-o" ++ value).toList = '-' :: 'o' :: value.toList := by
    simp [String.toList_append]
  rw [shape, whole]
  split
  next eq => simp at eq
  next eq => simp at eq
  next eq =>
    cases eq
    rfl
  next none => exact (none _ _ rfl).elim

theorem note?_eq_some_iff : spec.note? value given = some last ↔
    spec.long ∉ given.options.map Prod.fst ∧
      last = { given with options := given.options ++ [(spec.long, value)] } := by
  have unset : (given.options.lookup spec.long).isSome = false ↔
      spec.long ∉ given.options.map Prod.fst := by
    rw [Option.isSome_eq_false_iff, Option.isNone_iff_eq_none, List.lookup_eq_none_iff]
    simp only [bne_iff_ne, ne_eq, List.mem_map, not_exists, not_and]
    exact forall₂_congr fun _ _ => not_congr eq_comm
  rw [← unset, note?]
  cases (given.options.lookup spec.long).isSome <;> simp [eq_comm]

theorem find_long (h : Task.sampleOptions.find? (fun spec => spec.long == name) = some spec) :
    spec.long = name ∧ (spec = help ∨ name ∈ flagNames ∧ spec.takesValue = true) := by
  have same := List.find?_some h
  obtain rfl : spec.long = name := eq_of_beq same
  have known := List.mem_of_find?_eq_some h
  simp only [Task.sampleOptions, List.mem_cons, List.not_mem_nil, or_false] at known
  rcases known with rfl | rfl | rfl | rfl | rfl | rfl
  · exact ⟨rfl, .inl rfl⟩
  all_goals exact ⟨rfl, .inr ⟨by decide, rfl⟩⟩

theorem exists_find_long (known : name ∈ flagNames) :
    ∃ spec, Task.sampleOptions.find? (fun spec => spec.long == name) = some spec ∧
      spec.long = name ∧ spec.takesValue = true := by
  simp only [flagNames, List.mem_cons, List.not_mem_nil, or_false] at known
  rcases known with rfl | rfl | rfl | rfl | rfl <;> exact ⟨_, rfl, rfl, rfl⟩

/-- The one option of a sampling that has a letter. -/
def output : OptionSpec :=
  { long := "output", letter := some 'o', takesValue := true }

theorem readLetters_output (given : Given) (letters : List Char) :
    readLetters Task.sampleOptions given ('o' :: letters) =
      match attached? letters with
      | some value => .given <$> note? output value given
      | none => some (.pending output given) :=
  rfl

theorem readLetters_other {c : Char} (other : c ≠ 'o') (given : Given) (letters : List Char) :
    readLetters Task.sampleOptions given (c :: letters) =
      if c = 'h' then some (.form .help) else none := by
  have without : ('o' == c) = false := beq_eq_false_iff_ne.mpr other.symm
  by_cases asksHelp : c = 'h'
  · subst c
    rfl
  · have unasked : ('h' == c) = false := beq_eq_false_iff_ne.mpr (Ne.symm asksHelp)
    simp [readLetters, Task.sampleOptions, help, without, unasked, asksHelp]

theorem attached?_of_plain (filled : value ≠ "") (plain : value.toList.head? ≠ some '=') :
    attached? value.toList = some value := by
  unfold attached?
  split
  next eq => exact absurd (String.toList_eq_nil_iff.mp eq) filled
  next eq => simp [eq] at plain
  next => rw [String.ofList_toList]

theorem read_flag {front : List String} (h : Flag front name value) : ∃ spec : OptionSpec,
    spec.long = name ∧ ∀ given rest, read Task.sampleOptions none given (front ++ rest) =
      (spec.note? value given).bind fun given => read Task.sampleOptions none given rest := by
  cases h with
  | apart known plain =>
    obtain ⟨spec, found, long, takes⟩ := exists_find_long known
    refine ⟨spec, long, fun given rest => ?_⟩
    rw [List.cons_append, read.eq_3, shape_long known]
    simp only [found, takes, Option.bind_eq_bind, Option.bind_some, List.cons_append,
      List.nil_append, read.eq_2, isValue_iff.mpr plain, if_true]
  | joined known =>
    obtain ⟨spec, found, long, takes⟩ := exists_find_long known
    refine ⟨spec, long, fun given rest => ?_⟩
    rw [List.cons_append, read.eq_3, shape_joined known]
    simp only [found, takes, Option.bind_eq_bind, Option.bind_some, List.nil_append]
  | letterApart plain =>
    refine ⟨output, rfl, fun given rest => ?_⟩
    have letter : shape "-o" = .letters ['o'] := rfl
    rw [List.cons_append, read.eq_3, letter]
    simp only [readLetters_output, attached?, Option.bind_eq_bind, Option.bind_some,
      List.cons_append, List.nil_append, read.eq_2, isValue_iff.mpr plain, if_true]
  | letterJoined filled plain =>
    refine ⟨output, rfl, fun given rest => ?_⟩
    rw [List.cons_append, read.eq_3, shape_letter]
    simp only [readLetters_output, attached?_of_plain filled plain, Option.bind_eq_bind]
    cases note? output value given <;> rfl
  | letterEquals =>
    refine ⟨output, rfl, fun given rest => ?_⟩
    have letters : shape ("-o=" ++ value) = .letters ('o' :: '=' :: value.toList) := by
      have parts : "-o=" ++ value = "-o" ++ ("=" ++ value) := by
        simp [← String.toList_inj, String.toList_append]
      rw [parts, shape_letter]
      simp [String.toList_append]
    rw [List.cons_append, read.eq_3, letters]
    simp only [readLetters_output, attached?, String.ofList_toList, Option.bind_eq_bind]
    cases note? output value given <;> rfl

/-- After its letter, an option has its value attached or still to come. -/
theorem flag_of_letter {letters : List Char} (h : argument.toList = '-' :: 'o' :: letters) :
    (argument = "-o" ∧ letters = []) ∨
      ∃ value, attached? letters = some value ∧ Flag [argument] "output" value := by
  cases letters with
  | nil => exact .inl ⟨String.toList_inj.mp h, rfl⟩
  | cons c letters =>
    right
    by_cases equals : c = '='
    · subst c
      obtain rfl : argument = "-o=" ++ String.ofList letters := by
        rw [← String.toList_inj, h]
        simp [String.toList_append]
      exact ⟨_, rfl, .letterEquals⟩
    · obtain rfl : argument = "-o" ++ String.ofList (c :: letters) := by
        rw [← String.toList_inj, h]
        simp [String.toList_append]
      have filled : String.ofList (c :: letters) ≠ "" := by simp
      have plain : (String.ofList (c :: letters)).toList.head? ≠ some '=' := by simpa using equals
      have attached := attached?_of_plain filled plain
      rw [String.toList_ofList] at attached
      exact ⟨_, attached, .letterJoined filled plain⟩

/-- Given an option that waits for its value, only the next argument can be that value. -/
theorem read_pending (h : read Task.sampleOptions (some spec) given arguments = some (.given last)) :
    ∃ value rest, arguments = value :: rest ∧ IsApart value ∧
      (spec.note? value given).bind (fun given => read Task.sampleOptions none given rest) =
        some (.given last) := by
  cases arguments with
  | nil => simp [read.eq_1] at h
  | cons value rest =>
    rw [read.eq_2] at h
    split at h
    next plain => exact ⟨value, rest, rfl, isValue_iff.mp plain, h⟩
    next => cases h

/-- Arguments that are read begin with a separator, with an argument that belongs to no option, or
with a flag that is noted. -/
theorem read_cases
    (h : read Task.sampleOptions none given (argument :: arguments) = some (.given last)) :
    (argument = "--" ∧ last = { given with others := given.others ++ arguments }) ∨
    read Task.sampleOptions none { given with others := given.others ++ [argument] } arguments =
      some (.given last) ∨
    ∃ front name value rest, Flag front name value ∧ argument :: arguments = front ++ rest ∧
      ∃ spec : OptionSpec, spec.long = name ∧
        (spec.note? value given).bind (fun given => read Task.sampleOptions none given rest) =
          some (.given last) := by
  rw [read.eq_3] at h
  cases said : shape argument with
  | separator =>
    rw [said] at h
    cases h
    exact .inl ⟨shape_eq_separator said, rfl⟩
  | other =>
    rw [said] at h
    exact .inr (.inl h)
  | letters letters =>
    rw [said] at h
    obtain ⟨filled, spelled⟩ := shape_eq_letters said
    obtain ⟨c, letters, rfl⟩ := List.exists_cons_of_ne_nil filled
    obtain ⟨read, understood, continued⟩ := Option.bind_eq_some_iff.mp h
    by_cases asksOutput : c = 'o'
    · subst c
      rw [readLetters_output] at understood
      rcases flag_of_letter spelled with ⟨rfl, rfl⟩ | ⟨value, attached, flag⟩
      · cases understood
        obtain ⟨value, rest, rfl, plain, noted⟩ := read_pending continued
        exact .inr (.inr ⟨_, _, _, rest, .letterApart plain, rfl, output, rfl, noted⟩)
      · rw [attached] at understood
        obtain ⟨after, noted, rfl⟩ := Option.map_eq_some_iff.mp understood
        refine .inr (.inr ⟨_, _, _, arguments, flag, rfl, output, rfl, ?_⟩)
        rw [noted]
        exact continued
    · rw [readLetters_other asksOutput] at understood
      split at understood
      next =>
        cases understood
        cases continued
      next => cases understood
  | long name value =>
    rw [said] at h
    have spelled := shape_eq_long said
    obtain ⟨spec, found, continued⟩ := Option.bind_eq_some_iff.mp h
    obtain ⟨rfl, rfl | ⟨known, takes⟩⟩ := find_long found
    · cases value <;> simp [help] at continued
    · cases value with
      | none =>
        rw [takes] at continued
        obtain ⟨value, rest, rfl, plain, noted⟩ := read_pending continued
        obtain rfl : argument = "--" ++ spec.long := spelled.trans String.append_empty
        exact .inr (.inr ⟨_, _, _, rest, .apart known plain, rfl, spec, rfl, noted⟩)
      | some value =>
        rw [takes] at continued
        obtain rfl : argument = "--" ++ spec.long ++ "=" ++ value :=
          spelled.trans String.append_assoc.symm
        exact .inr (.inr ⟨_, _, _, arguments, .joined known, rfl, spec, rfl, continued⟩)

theorem flags_of_read (h : read Task.sampleOptions none given arguments = some (.given last))
    (whole : last.others = []) (distinct : (given.options.map Prod.fst).Nodup) :
    given.others = [] ∧ ∃ options, Flags arguments options ∧
      last.options = given.options ++ options ∧ (last.options.map Prod.fst).Nodup := by
  -- a flag takes one argument or two, so the induction is on how many there are
  induction count : arguments.length using Nat.strongRecOn generalizing arguments given with
  | ind n ih =>
    cases arguments with
    | nil =>
      rw [read.eq_1] at h
      cases h
      exact ⟨whole, [], .nil, (List.append_nil _).symm, distinct⟩
    | cons argument arguments =>
      rcases read_cases h with
        ⟨rfl, rfl⟩ | continued | ⟨front, _, value, rest, flag, same, spec, rfl, noted⟩
      · obtain ⟨others, rfl⟩ := List.append_eq_nil_iff.mp whole
        exact ⟨others, [], .separator, (List.append_nil _).symm, distinct⟩
      · have shorter : arguments.length < n := by
          rw [← count]
          exact Nat.lt_succ_self _
        have none := (ih _ shorter continued distinct rfl).1
        exact absurd none (List.append_ne_nil_of_right_ne_nil _ (List.cons_ne_nil _ _))
      · obtain ⟨after, note, continued⟩ := Option.bind_eq_some_iff.mp noted
        obtain ⟨fresh, rfl⟩ := note?_eq_some_iff.mp note
        have filled := flag.length_pos
        have shorter : rest.length < n := by
          rw [← count, same, List.length_append]
          omega
        have distinct' : ((given.options ++ [(spec.long, value)]).map Prod.fst).Nodup := by
          rw [List.map_append, List.nodup_append_comm]
          exact List.nodup_cons.mpr ⟨fresh, distinct⟩
        obtain ⟨others, options, flags, options_eq, named⟩ := ih _ shorter continued distinct' rfl
        rw [same]
        refine ⟨others, (spec.long, value) :: options, .cons flag flags, ?_, named⟩
        rw [options_eq, List.append_assoc]
        rfl

theorem read_of_flags (h : Flags arguments options) {before : List (String × String)}
    (distinct : ((before ++ options).map Prod.fst).Nodup) :
    read Task.sampleOptions none ⟨before, []⟩ arguments =
      some (.given ⟨before ++ options, []⟩) := by
  induction h generalizing before with
  | nil => rw [read.eq_1, List.append_nil]; rfl
  | separator =>
    have said : shape "--" = .separator := rfl
    rw [read.eq_3, said]
    simp
  | @cons front rest name value options flag _ ih =>
    obtain ⟨spec, rfl, reads⟩ := read_flag flag
    have moved : before ++ (spec.long, value) :: options =
        (before ++ [(spec.long, value)]) ++ options := by simp
    have fresh : spec.long ∉ before.map Prod.fst := by
      rw [List.map_append, List.map_cons, List.nodup_middle, List.nodup_cons] at distinct
      exact fun mem => distinct.1 (List.mem_append_left _ mem)
    have noted : spec.note? value ⟨before, []⟩ = some ⟨before ++ [(spec.long, value)], []⟩ :=
      note?_eq_some_iff.mpr ⟨fresh, rfl⟩
    rw [moved] at distinct ⊢
    rw [reads, noted, Option.bind_some, ih distinct]

end OptionSpec

theorem rel_fileName?_iff {text found : Option String} :
    Option.Rel (fun text name => Task.fileName? text = some name) text found ↔
      found = text ∧ found ≠ some "" := by
  have named (text name : String) :
      Task.fileName? text = some name ↔ name = text ∧ name ≠ "" := by
    unfold Task.fileName?
    split
    next empty =>
      rw [String.isEmpty_iff] at empty
      simp [empty]
    next filled =>
      rw [String.isEmpty_iff] at filled
      simp only [Option.some.injEq, eq_comm, iff_self_and]
      exact fun same => same ▸ filled
  cases text <;> cases found <;> simp [Option.rel_some_some, named]

theorem sample?_eq_some_iff {given : Given} {request : SampleRequest} :
    Task.sample? given = some (.sample request) ↔ given.others = [] ∧ Asked given.options request := by
  simp only [Task.sample?, Option.bind_eq_bind, Option.bind_eq_some_iff, valueBy?_eq_some_iff,
    rel_fileName?_iff, ofName?_eq_some_iff]
  constructor
  · intro h
    obtain ⟨output, ⟨same, named⟩, narrowLimit, narrow, broadLimit, broad, only, category, h⟩ := h
    split at h
    next whole =>
      cases h
      exact ⟨List.isEmpty_iff.mp whole, rfl, same, named, narrow, broad, category⟩
    next => cases h
  · intro h
    obtain ⟨whole, baseUrl, output, named, narrow, broad, only⟩ := h
    refine ⟨_, ⟨output, named⟩, _, narrow, _, broad, _, only, ?_⟩
    rw [if_pos (List.isEmpty_iff.mpr whole), ← baseUrl]

/-- The program is asked to sample exactly by the arguments that say so. -/
theorem ofArguments?_sample_iff {arguments : List String} {request : SampleRequest} :
    Task.ofArguments? ("sample" :: arguments) = some (.sample request) ↔ Asks arguments request := by
  have command : OptionSpec.shape "sample" = .other := rfl
  have form : Task.ofArguments? ("sample" :: arguments) =
      Task.ofForm? Task.sampleOptions arguments Task.sample? := by
    rw [Task.ofArguments?, command]
    rfl
  rw [form, Task.ofForm?]
  constructor
  · intro h
    obtain ⟨read, understood, continued⟩ := Option.bind_eq_some_iff.mp h
    cases read with
    | help => cases continued
    | version => cases continued
    | given given =>
      obtain ⟨whole, asked⟩ := sample?_eq_some_iff.mp continued
      obtain ⟨_, options, flags, same, named⟩ :=
        OptionSpec.flags_of_read understood whole List.nodup_nil
      rw [List.nil_append] at same
      subst same
      exact ⟨_, flags, named, asked⟩
  · intro h
    obtain ⟨options, flags, named, asked⟩ := h
    have understood : OptionSpec.read Task.sampleOptions none ⟨[], []⟩ arguments =
        some (.given ⟨options, []⟩) := OptionSpec.read_of_flags flags named
    rw [understood]
    exact sample?_eq_some_iff.mpr ⟨rfl, asked⟩

end SimpleLedger.Command
