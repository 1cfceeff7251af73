import SimpleLedger.Proofs.Json.Reading
import SimpleLedger.Proofs.Json.Scanned

namespace SimpleLedger.Json

open Token (IsGap Spelled)

/-- The text consists of these tokens, with white space where it likes. -/
inductive Token.Listed : List Token → List Char → Prop
  | nil {gap : List Char} : IsGap gap → Listed [] gap
  | cons {token : Token} {tokens : List Token} {gap text rest : List Char} : IsGap gap →
    Spelled token text → Listed tokens rest → Listed (token :: tokens) (gap ++ text ++ rest)

theorem Token.Listed.space {tokens : List Token} {text : List Char} {c : Char}
    (h : Listed tokens text) (space : isSpace c) : Listed tokens (c :: text) := by
  cases h with
  | nil blank => exact .nil (List.forall_mem_cons.mpr ⟨space, blank⟩)
  | @cons token tokens gap text rest blank first others =>
    have longer : IsGap (c :: gap) := List.forall_mem_cons.mpr ⟨space, blank⟩
    exact .cons longer first others

theorem Token.allFrom_eq_some {taken tokens : List Token} {text : List Char}
    (h : allFrom taken text = some tokens) :
    ∃ more, tokens = taken.reverse ++ more ∧ Listed more text := by
  fun_induction allFrom taken text with
  | case1 =>
    obtain rfl := Option.some.inj h
    exact ⟨[], (List.append_nil _).symm, .nil isGap_nil⟩
  | case2 taken c rest space ih =>
    obtain ⟨more, rfl, listed⟩ := ih h
    exact ⟨more, rfl, listed.space space⟩
  | case3 taken c rest solid token after found ih =>
    obtain ⟨more, rfl, listed⟩ := ih h
    obtain ⟨spelled, eq, spelling⟩ := scan_eq_some found
    refine ⟨token :: more, by simp, ?_⟩
    rw [eq]
    exact .cons isGap_nil spelling listed
  | case4 => cases h

/-- The rest of an array after an item, up to its end. -/
inductive ItemsRest : List Written → List Char → List Char → Prop
  | close {gap rest : List Char} : IsGap gap → ItemsRest [] (gap ++ ']' :: rest) rest
  | more {item : Written} {items : List Written} {gap text tail rest : List Char} : IsGap gap →
    Spelling (.element item) text → ItemsRest items tail rest →
    ItemsRest (item :: items) (gap ++ ',' :: (text ++ tail)) rest

/-- The rest of an object after a member, up to its end. -/
inductive MembersRest : List (List Piece × Written) → List Char → List Char → Prop
  | close {gap rest : List Char} : IsGap gap → MembersRest [] (gap ++ '\x7d' :: rest) rest
  | more {name : List Piece} {value : Written} {members : List (List Piece × Written)}
    {gap text tail rest : List Char} : IsGap gap → Spelling (.member name value) text →
    MembersRest members tail rest →
    MembersRest ((name, value) :: members) (gap ++ ',' :: (text ++ tail)) rest

theorem Spelling.element_append {value : Written} {text gap : List Char}
    (h : Spelling (.element value) text) (blank : IsGap gap) :
    Spelling (.element value) (text ++ gap) := by
  cases h with
  | element before spelled after =>
    rw [List.append_assoc]
    exact .element before spelled (List.forall_mem_append.mpr ⟨after, blank⟩)

theorem Spelling.member_append {name : List Piece} {value : Written} {text gap : List Char}
    (h : Spelling (.member name value) text) (blank : IsGap gap) :
    Spelling (.member name value) (text ++ gap) := by
  cases h with
  | member before key between element =>
    have longer := Spelling.member before key between (element.element_append blank)
    simpa using longer

theorem ItemsRest.spelling {items : List Written} {tail rest : List Char}
    (h : ItemsRest items tail rest) {item : Written} {text : List Char}
    (first : Spelling (.element item) text) :
    ∃ body, text ++ tail = body ++ ']' :: rest ∧ Spelling (.items (item :: items)) body := by
  induction h generalizing item text with
  | @close gap rest blank =>
    exact ⟨text ++ gap, by simp, .lastItem (first.element_append blank)⟩
  | @more _ _ gap text' tail rest blank second _ ih =>
    obtain ⟨body, eq, spelled⟩ := ih second
    refine ⟨text ++ gap ++ ',' :: body, ?_, .moreItems (first.element_append blank) spelled⟩
    simp [eq]

theorem MembersRest.spelling {members : List (List Piece × Written)} {tail rest : List Char}
    (h : MembersRest members tail rest) {name : List Piece} {value : Written} {text : List Char}
    (first : Spelling (.member name value) text) :
    ∃ body, text ++ tail = body ++ '\x7d' :: rest ∧
      Spelling (.members ((name, value) :: members)) body := by
  induction h generalizing name value text with
  | @close gap rest blank =>
    exact ⟨text ++ gap, by simp, .lastMember (first.member_append blank)⟩
  | @more _ _ _ gap text' tail rest blank second _ ih =>
    obtain ⟨body, eq, spelled⟩ := ih second
    refine ⟨text ++ gap ++ ',' :: body, ?_, .moreMembers (first.member_append blank) spelled⟩
    simp [eq]

/-- After a value within containers, the text closes them one by one, and ends in the last. -/
def Closes : List Frame → Written → List Char → Written → Prop
  | [], value, text, last => IsGap text ∧ last = value
  | .array done :: outer, value, text, last => ∃ items rest, ItemsRest items text rest ∧
    Closes outer (.array (done.reverse ++ value :: items)) rest last
  | .object done name :: outer, value, text, last => ∃ members rest,
    MembersRest members text rest ∧
    Closes outer (.object (done.reverse ++ (name, value) :: members)) rest last

/-- The text is a value within containers, and then closes them. -/
def ValueComes (outer : List Frame) (text : List Char) (last : Written) : Prop :=
  ∃ value spelled rest, text = spelled ++ rest ∧ Spelling (.element value) spelled ∧
    Closes outer value rest last

/-- The text is a member of an object, and then closes the containers around it. -/
def MemberComes (done : List (List Piece × Written)) (outer : List Frame) (text : List Char)
    (last : Written) : Prop :=
  ∃ name value spelled rest, text = spelled ++ rest ∧ Spelling (.member name value) spelled ∧
    Closes (.object done name :: outer) value rest last

/-- What the rest of a text must be for the machine to come to a value from a state. -/
def Reading.Wants : Reading → List Char → Written → Prop
  | atValue outer, text, last => ValueComes outer text last
  | atFirstItem outer, text, last => ValueComes (.array [] :: outer) text last ∨
    ∃ gap rest, text = gap ++ ']' :: rest ∧ IsGap gap ∧ Closes outer (.array []) rest last
  | atFirstName outer, text, last => MemberComes [] outer text last ∨
    ∃ gap rest, text = gap ++ '\x7d' :: rest ∧ IsGap gap ∧ Closes outer (.object []) rest last
  | atName members outer, text, last => MemberComes members outer text last
  | atColon members name outer, text, last => ∃ gap rest, text = gap ++ ':' :: rest ∧ IsGap gap ∧
    ValueComes (.object members name :: outer) rest last
  | afterItem items outer, text, last => ∃ more rest, ItemsRest more text rest ∧
    Closes outer (.array (items.reverse ++ more)) rest last
  | afterMember members outer, text, last => ∃ more rest, MembersRest more text rest ∧
    Closes outer (.object (members.reverse ++ more)) rest last
  | done value, text, last => IsGap text ∧ last = value

variable {outer : List Frame} {token : Token} {next : Reading} {gap text rest : List Char}
  {value last : Written}

theorem closes_of_after (h : (Reading.after value outer).Wants rest last) :
    Closes outer value rest last := by
  match outer with
  | [] => exact h
  | .array done :: outer =>
    obtain ⟨more, rest, items, closes⟩ := h
    refine ⟨more, rest, items, ?_⟩
    simpa using closes
  | .object done name :: outer =>
    obtain ⟨more, rest, members, closes⟩ := h
    refine ⟨more, rest, members, ?_⟩
    simpa using closes

theorem valueComes_of_spelling (blank : IsGap gap) (spelled : Spelling (.value value) text)
    (closes : Closes outer value rest last) : ValueComes outer (gap ++ text ++ rest) last := by
  have element := Spelling.element blank spelled Token.isGap_nil
  rw [List.append_nil] at element
  exact ⟨value, gap ++ text, rest, rfl, element, closes⟩

theorem valueComes_of_start (blank : IsGap gap) (spelled : Spelled token text)
    (begun : Reading.start outer token = some next) (wants : next.Wants rest last) :
    ValueComes outer (gap ++ text ++ rest) last := by
  have whole {value : Written} (spelled : Spelling (.value value) text)
      (ended : some (Reading.after value outer) = some next) :
      ValueComes outer (gap ++ text ++ rest) last := by
    rw [← Option.some.inj ended] at wants
    exact valueComes_of_spelling blank spelled (closes_of_after wants)
  cases spelled with
  | closeBrace | closeBracket | colon | comma => cases begun
  | null => exact whole .null begun
  | true => exact whole .true begun
  | false => exact whole .false begun
  | number spelled => exact whole (.number spelled) begun
  | string spelled => exact whole (.string spelled) begun
  | openBracket =>
    obtain rfl := Option.some.inj begun
    rcases wants with ⟨value, spelled, tail, rfl, element, items, rest, others, closes⟩ |
      ⟨inner, rest, rfl, blank', closes⟩
    · obtain ⟨body, eq, spelled⟩ := others.spelling element
      have came := valueComes_of_spelling blank (.array spelled) closes
      simpa [eq] using came
    · have came := valueComes_of_spelling blank (.noItems blank') closes
      simpa using came
  | openBrace =>
    obtain rfl := Option.some.inj begun
    rcases wants with ⟨name, value, spelled, tail, rfl, member, members, rest, others, closes⟩ |
      ⟨inner, rest, rfl, blank', closes⟩
    · obtain ⟨body, eq, spelled⟩ := others.spelling member
      have came := valueComes_of_spelling blank (.object spelled) closes
      simpa [eq] using came
    · have came := valueComes_of_spelling blank (.noMembers blank') closes
      simpa using came

theorem memberComes_of_name {done : List (List Piece × Written)} {name : List Piece}
    (blank : IsGap gap) (spelled : Spelled (.string name) text)
    (wants : (Reading.atColon done name outer).Wants rest last) :
    MemberComes done outer (gap ++ text ++ rest) last := by
  cases spelled with
  | @string _ key spelled =>
    obtain ⟨between, rest, rfl, blank', value, text, rest, rfl, element, closes⟩ := wants
    have member := Spelling.member blank spelled blank' element
    refine ⟨name, value, _, rest, ?_, member, closes⟩
    simp

/-- What the next state wants of the text after a token, the state before it wants of the whole. -/
theorem wants_of_step {state : Reading} (blank : IsGap gap) (spelled : Spelled token text)
    (taken : Reading.step state token = some next) (wants : next.Wants rest last) :
    state.Wants (gap ++ text ++ rest) last := by
  unfold Reading.step at taken
  split at taken
  case h_1 => exact valueComes_of_start blank spelled taken wants
  case h_2 =>
    obtain rfl := Option.some.inj taken
    cases spelled
    exact .inr ⟨gap, rest, by simp, blank, closes_of_after wants⟩
  case h_3 => exact .inl (valueComes_of_start blank spelled taken wants)
  case h_4 =>
    obtain rfl := Option.some.inj taken
    cases spelled
    exact .inr ⟨gap, rest, by simp, blank, closes_of_after wants⟩
  case h_5 =>
    obtain rfl := Option.some.inj taken
    exact .inl (memberComes_of_name blank spelled wants)
  case h_6 =>
    obtain rfl := Option.some.inj taken
    exact memberComes_of_name blank spelled wants
  case h_7 =>
    obtain rfl := Option.some.inj taken
    cases spelled
    exact ⟨gap, rest, by simp, blank, wants⟩
  case h_8 =>
    obtain rfl := Option.some.inj taken
    cases spelled
    obtain ⟨value, text, tail, rfl, element, items, rest, others, closes⟩ := wants
    refine ⟨value :: items, rest, ?_, closes⟩
    simpa using ItemsRest.more blank element others
  case h_9 =>
    obtain rfl := Option.some.inj taken
    cases spelled
    refine ⟨[], rest, ?_, ?_⟩
    · simpa using ItemsRest.close blank
    · simpa using closes_of_after wants
  case h_10 =>
    obtain rfl := Option.some.inj taken
    cases spelled
    obtain ⟨name, value, text, tail, rfl, member, members, rest, others, closes⟩ := wants
    refine ⟨(name, value) :: members, rest, ?_, closes⟩
    simpa using MembersRest.more blank member others
  case h_11 =>
    obtain rfl := Option.some.inj taken
    cases spelled
    refine ⟨[], rest, ?_, ?_⟩
    · simpa using MembersRest.close blank
    · simpa using closes_of_after wants
  case h_12 => cases taken

theorem wants_of_steps {state : Reading} {tokens : List Token} (listed : Token.Listed tokens text)
    (reached : Reading.steps state tokens = some (.done last)) : state.Wants text last := by
  induction listed generalizing state with
  | nil blank =>
    obtain rfl := Option.some.inj reached
    exact ⟨blank, rfl⟩
  | cons blank spelled _ ih =>
    rw [Reading.steps] at reached
    split at reached
    next taken => exact wants_of_step blank spelled taken (ih reached)
    next => cases reached

/-- Exactly the texts of the grammar are read, each as the value that it spells. -/
theorem Written.ofText?_eq_some_iff {text : String} :
    Written.ofText? text = some value ↔ Spelling (.element value) text.toList := by
  constructor
  · intro h
    obtain ⟨tokens, all, taken⟩ := Option.bind_eq_some_iff.mp h
    obtain ⟨more, rfl, listed⟩ := Token.allFrom_eq_some all
    unfold Written.ofTokens? at taken
    split at taken
    next reached =>
      obtain rfl := Option.some.inj taken
      obtain ⟨value, spelled, rest, eq, element, blank, rfl⟩ := wants_of_steps listed reached
      rw [eq]
      exact element.element_append blank
    next => cases taken
  · intro spelled
    have read := spelled.ofText?_eq
    rwa [String.ofList_toList] at read

/-- By the grammar the text of a value on one line spells this value only. -/
theorem Exact.spelling_compactText_iff {value : Json} (h : Exact value) (written : Written) :
    Spelling (.element written) value.compactText.toList ↔ written = value.written := by
  have element := Spelling.element Token.isGap_nil h.spells_compact Token.isGap_nil
  rw [List.nil_append, List.append_nil] at element
  have read := element.ofText?_eq
  rw [← Written.ofText?_eq_some_iff, compactText, read, Option.some.injEq]
  exact eq_comm

end SimpleLedger.Json
