import SimpleLedger.Json.Reader
import SimpleLedger.Proofs.Json.Printing
import SimpleLedger.Proofs.Json.Scanning

namespace SimpleLedger.Json

open Token (Apart IsGap)

namespace Token

/-- The text consists of these tokens and white space. -/
def Reads (text : List Char) (tokens : List Token) : Prop :=
  ∀ taken, allFrom taken text = some (taken.reverse ++ tokens)

variable {text rest gap : List Char} {token : Token} {tokens : List Token}

theorem reads_nil : Reads [] [] := by
  intro taken
  rw [allFrom, List.append_nil]

theorem scan_space {c : Char} (space : isSpace c) (text : List Char) : scan (c :: text) = none := by
  simp only [isSpace, Bool.or_eq_true, beq_iff_eq] at space
  rcases space with ((rfl | rfl) | rfl) | rfl <;> rfl

theorem Reads.first (h : Reads rest tokens) (found : scan text = some (token, rest)) :
    Reads text (token :: tokens) := by
  intro taken
  cases text with
  | nil => cases found
  | cons c text =>
    -- A token never begins with white space, so the text is not skipped here.
    have solid : ¬ isSpace c := by
      intro space
      rw [scan_space space] at found
      cases found
    rw [allFrom, if_neg solid]
    split
    next token' after other =>
      obtain ⟨rfl, rfl⟩ := Prod.mk.inj (Option.some.inj (found.symm.trans other))
      rw [h, List.reverse_cons, List.append_assoc, List.singleton_append]
    next none => cases found.symm.trans none

theorem Reads.after (h : Reads text tokens) (blank : IsGap gap) : Reads (gap ++ text) tokens := by
  induction gap with
  | nil => exact h
  | cons c gap ih =>
    obtain ⟨space, spaces⟩ := List.forall_mem_cons.mp blank
    intro taken
    rw [List.cons_append, allFrom, if_pos space]
    exact ih spaces taken

theorem apart_gap (blank : IsGap gap) (apart : Apart rest) : Apart (gap ++ rest) := by
  cases gap with
  | nil => exact apart
  | cons c gap =>
    have space := (List.forall_mem_cons.mp blank).1
    simp only [isSpace, Bool.or_eq_true, beq_iff_eq] at space
    rcases space with ((rfl | rfl) | rfl) | rfl <;> exact apart_cons rfl (by decide) _

end Token

namespace Reading

/-- From one state a text brings the machine to another. -/
def Runs (state : Reading) (text : List Char) (last : Reading) : Prop :=
  ∃ tokens, Token.Reads text tokens ∧ steps state tokens = some last

variable {state next last : Reading} {text rest : List Char}

theorem runs_nil (state : Reading) : Runs state [] state :=
  ⟨[], Token.reads_nil, rfl⟩

theorem Runs.token {token : Token} (h : Runs next rest last)
    (found : Token.scan text = some (token, rest)) (taken : step state token = some next) :
    Runs state text last := by
  obtain ⟨tokens, reads, reached⟩ := h
  refine ⟨token :: tokens, reads.first found, ?_⟩
  rw [steps, taken]
  exact reached

theorem Runs.gap {gap : List Char} (h : Runs state rest last) (blank : IsGap gap) :
    Runs state (gap ++ rest) last := by
  obtain ⟨tokens, reads, reached⟩ := h
  exact ⟨tokens, reads.after blank, reached⟩

/-- Any value may come, within these containers. -/
def Expects (state : Reading) (outer : List Frame) : Prop :=
  ∀ token ≠ .closeBracket, step state token = start outer token

theorem expects_atValue (outer : List Frame) : Expects (.atValue outer) outer :=
  fun _ _ => rfl

theorem expects_atFirstItem (outer : List Frame) :
    Expects (.atFirstItem outer) (.array [] :: outer) := by
  intro token other
  cases token with
  | closeBracket => exact absurd rfl other
  | _ => rfl

/-- Any name may come, after these members. -/
def ExpectsName (state : Reading) (members : List (List Piece × Written)) (outer : List Frame) :
    Prop :=
  ∀ name, step state (.string name) = some (.atColon members name outer)

end Reading

open Reading

/-- What the machine makes of a text of each form, wherever it stands and whatever comes after. -/
def Form.IsRead : Form → List Char → Prop
  | .value written, text | .element written, text => ∀ state outer rest last,
    Expects state outer → Apart rest → Runs (.after written outer) rest last →
    Runs state (text ++ rest) last
  | .items writtens, text => ∀ state done outer rest last, Expects state (.array done :: outer) →
    Runs (.after (.array (done.reverse ++ writtens)) outer) rest last →
    Runs state (text ++ ']' :: rest) last
  | .member name written, text => ∀ state done outer rest last, ExpectsName state done outer →
    Apart rest → Runs (.afterMember ((name, written) :: done) outer) rest last →
    Runs state (text ++ rest) last
  | .members writtens, text => ∀ state done outer rest last, ExpectsName state done outer →
    Runs (.after (.object (done.reverse ++ writtens)) outer) rest last →
    Runs state (text ++ '\x7d' :: rest) last

theorem enclosed_append (c d : Char) (text rest : List Char) :
    c :: text ++ [d] ++ rest = c :: (text ++ d :: rest) := by
  rw [List.cons_append, List.cons_append, List.append_assoc, List.singleton_append]

theorem Spelling.isRead {form : Form} {text : List Char} (h : Spelling form text) :
    form.IsRead text := by
  induction h with
  | null => exact fun _ _ _ _ expects _ runs => runs.token rfl (expects _ (by decide))
  | true => exact fun _ _ _ _ expects _ runs => runs.token rfl (expects _ (by decide))
  | false => exact fun _ _ _ _ expects _ runs => runs.token rfl (expects _ (by decide))
  | number spelled =>
    intro state outer rest last expects apart runs
    exact runs.token (Token.scan_number spelled apart) (expects _ (by simp))
  | string spelled =>
    intro state outer rest last expects _ runs
    rw [enclosed_append]
    exact runs.token (Token.scan_string spelled rest) (expects _ (by simp))
  | noItems blank =>
    intro state outer rest last expects _ runs
    rw [enclosed_append]
    have closed : Runs (.atFirstItem outer) (']' :: rest) last := runs.token rfl rfl
    exact (closed.gap blank).token rfl (expects _ (by decide))
  | array _ ih =>
    intro state outer rest last expects _ runs
    rw [enclosed_append]
    have inner := ih _ [] outer rest last (expects_atFirstItem outer) runs
    exact inner.token rfl (expects _ (by decide))
  | noMembers blank =>
    intro state outer rest last expects _ runs
    rw [enclosed_append]
    have closed : Runs (.atFirstName outer) ('\x7d' :: rest) last := runs.token rfl rfl
    exact (closed.gap blank).token rfl (expects _ (by decide))
  | object _ ih =>
    intro state outer rest last expects _ runs
    rw [enclosed_append]
    have inner := ih (.atFirstName outer) [] outer rest last (fun _ => rfl) runs
    exact inner.token rfl (expects _ (by decide))
  | element before _ after ih =>
    intro state outer rest last expects apart runs
    rw [List.append_assoc, List.append_assoc]
    have value := ih state outer _ last expects (Token.apart_gap after apart) (runs.gap after)
    exact value.gap before
  | @lastItem item text _ ih =>
    intro state done outer rest last expects runs
    have closed : Runs (.after item (.array done :: outer)) (']' :: rest) last := by
      refine runs.token rfl ?_
      rw [Reading.after, step, List.reverse_cons]
    exact ih state _ _ last expects (Token.apart_cons rfl (by decide) rest) closed
  | @moreItems item items text more _ _ first others =>
    intro state done outer rest last expects runs
    have joined : done.reverse ++ item :: items = (item :: done).reverse ++ items := by simp
    rw [joined] at runs
    have later := others _ _ outer rest last (expects_atValue _) runs
    have comma : Runs (.after item (.array done :: outer)) (',' :: (more ++ ']' :: rest)) last :=
      later.token rfl rfl
    rw [List.append_assoc]
    exact first state _ _ last expects (Token.apart_cons rfl (by decide) _) comma
  | @member name value before key between text blank spelled blank' _ ih =>
    intro state done outer rest last expects apart runs
    have inner := ih _ _ rest last (expects_atValue (.object done name :: outer)) apart runs
    have colon : Runs (.atColon done name outer) (':' :: (text ++ rest)) last :=
      inner.token rfl rfl
    have named := (colon.gap blank').token (Token.scan_string spelled _) (expects name)
    have placed := named.gap blank
    simpa using placed
  | @lastMember name value text _ ih =>
    intro state done outer rest last expects runs
    have closed : Runs (.afterMember ((name, value) :: done) outer) ('\x7d' :: rest) last := by
      refine runs.token rfl ?_
      rw [step, List.reverse_cons]
    exact ih state _ outer _ last expects (Token.apart_cons rfl (by decide) rest) closed
  | @moreMembers name value members text more _ _ first others =>
    intro state done outer rest last expects runs
    have joined : done.reverse ++ (name, value) :: members =
        ((name, value) :: done).reverse ++ members := by simp
    rw [joined] at runs
    have later := others (.atName _ outer) _ outer rest last (fun _ => rfl) runs
    have comma : Runs (.afterMember ((name, value) :: done) outer)
        (',' :: (more ++ '\x7d' :: rest)) last := later.token rfl rfl
    rw [List.append_assoc]
    exact first state _ outer _ last expects (Token.apart_cons rfl (by decide) _) comma

theorem Spelling.ofText?_eq {value : Written} {text : List Char}
    (h : Spelling (.element value) text) : Written.ofText? (String.ofList text) = some value := by
  have read := h.isRead (.atValue []) [] [] (.done value) (expects_atValue []) Token.apart_nil
    (runs_nil _)
  obtain ⟨tokens, reads, reached⟩ := read
  rw [List.append_nil] at reads
  have all : Token.all? text = some tokens := reads []
  rw [Written.ofText?, String.toList_ofList, all, Option.bind_some, Written.ofTokens?, reached]

theorem ofDecimal?_of_bounds {n : Int} (low : -0x8000000000000000 ≤ n)
    (high : n < 0x10000000000000000) :
    ofDecimal? ⟨decide (n < 0), n.natAbs, 0⟩ true = some (.int n) := by
  have signed : (if decide (n < 0) then -(n.natAbs : Int) else n.natAbs) = n := by
    split
    next negative =>
      have below : n < 0 := of_decide_eq_true negative
      omega
    next positive =>
      have above : ¬ n < 0 := fun below => positive (decide_eq_true below)
      omega
  have notZero : (decide (n < 0) && n.natAbs == 0) = false := by
    simp only [Bool.and_eq_false_iff, decide_eq_false_iff_not, beq_eq_false_iff_ne]
    omega
  have fits : (true && !(decide (n < 0) && n.natAbs == 0) && decide (-0x8000000000000000 ≤ n) &&
      decide (n < 0x10000000000000000)) = true := by
    rw [notZero, decide_eq_true low, decide_eq_true high]
    rfl
  simp only [ofDecimal?]
  rw [signed, if_pos fits]

theorem Piece.Meaning.charsOnto?_eq {pieces : List Piece} {text : List Char}
    (h : Meaning pieces text) (taken : List Char) :
    charsOnto? taken pieces = some (taken.reverse ++ text) := by
  induction h generalizing taken with
  | nil => rw [charsOnto?, List.append_nil]
  | char _ ih =>
    rw [charsOnto?, ih, List.reverse_cons, List.append_assoc, List.singleton_append]
  | unit alone _ ih =>
    rw [charsOnto?.eq_def]
    dsimp only
    rw [if_pos alone, ih, List.reverse_cons, List.append_assoc, List.singleton_append]
  | pair least high low most _ ih =>
    rw [charsOnto?.eq_def]
    dsimp only
    rw [if_neg (by omega), if_pos ⟨high, low, most⟩, ih, List.reverse_cons, List.append_assoc,
      List.singleton_append]

theorem Piece.meaning_of_charsOnto? {taken text : List Char} {pieces : List Piece}
    (h : charsOnto? taken pieces = some text) :
    ∃ more, text = taken.reverse ++ more ∧ Meaning pieces more := by
  fun_induction charsOnto? taken pieces with
  | case1 taken =>
    obtain rfl := Option.some.inj h
    exact ⟨[], (List.append_nil _).symm, .nil⟩
  | case2 taken c rest ih =>
    obtain ⟨more, rfl, means⟩ := ih h
    exact ⟨c :: more, by simp, .char means⟩
  | case3 taken code rest alone ih =>
    obtain ⟨more, rfl, means⟩ := ih h
    exact ⟨_ :: more, by simp, .unit alone means⟩
  | case4 taken high surrogate low rest bounds code ih =>
    obtain ⟨more, rfl, means⟩ := ih h
    have least : 0xd800 ≤ high := by omega
    exact ⟨Char.ofNat code :: more, by simp, .pair least bounds.1 bounds.2.1 bounds.2.2 means⟩
  | case5 => cases h
  | case6 => cases h

theorem Piece.text?_eq_some_iff {pieces : List Piece} {text : String} :
    text? pieces = some text ↔ Meaning pieces text.toList := by
  rw [text?, Option.map_eq_some_iff]
  constructor
  · rintro ⟨chars, found, rfl⟩
    obtain ⟨more, rfl, means⟩ := meaning_of_charsOnto? found
    rwa [String.toList_ofList]
  · intro means
    exact ⟨text.toList, means.charsOnto?_eq [], String.ofList_toList⟩

theorem Piece.meaning_ofText (text : String) : Meaning (ofText text) text.toList := by
  rw [ofText]
  induction text.toList with
  | nil => exact .nil
  | cons c text ih =>
    rw [List.map_cons, ofChar]
    split
    next control =>
      have low : c.toNat < 0xd800 ∨ 0xdfff < c.toNat := by omega
      have alone := Meaning.unit low ih
      rwa [Char.ofNat_toNat] at alone
    next => exact .char ih

theorem Piece.text?_ofText (text : String) : text? (ofText text) = some text :=
  text?_eq_some_iff.mpr (meaning_ofText text)

theorem ofItems?_writtenItems {items : List Json}
    (h : ∀ item ∈ items, ofWritten? item.written = some item) :
    ofItems? (writtenItems items) = some items := by
  induction items with
  | nil => rfl
  | cons item items ih =>
    obtain ⟨first, others⟩ := List.forall_mem_cons.mp h
    rw [writtenItems, ofItems?, first, ih others]
    rfl

theorem ofMembers?_writtenMembers {members : List (String × Json)}
    (h : ∀ member ∈ members, ofWritten? member.2.written = some member.2) :
    ofMembers? (writtenMembers members) = some members := by
  induction members with
  | nil => rfl
  | cons member members ih =>
    obtain ⟨first, others⟩ := List.forall_mem_cons.mp h
    rw [writtenMembers, ofMembers?, Piece.text?_ofText, first, ih others]
    rfl

theorem Exact.ofWritten?_written {value : Json} (h : Exact value) :
    ofWritten? value.written = some value := by
  induction h with
  | null => rfl
  | bool value => rfl
  | int low high => exact ofDecimal?_of_bounds low high
  | str text =>
    rw [written, ofWritten?, Piece.text?_ofText]
    rfl
  | arr _ ih =>
    rw [written, ofWritten?, ofItems?_writtenItems ih]
    rfl
  | obj _ ih =>
    rw [written, ofWritten?, ofMembers?_writtenMembers ih]
    rfl

/-- A text that spells a value as it is written is read as the value, also with white space after
it. -/
theorem Exact.ofText?_of_spells {value : Json} {text blank : List Char} (h : Exact value)
    (spells : Spelling (.value value.written) text) (gap : IsGap blank) :
    ofText? (String.ofList (text ++ blank)) = some value := by
  have element := Spelling.element Token.isGap_nil spells gap
  rw [List.nil_append] at element
  rw [ofText?, element.ofText?_eq, Option.bind_some, h.ofWritten?_written]

theorem Exact.ofText?_compactText {value : Json} (h : Exact value) :
    ofText? value.compactText = some value := by
  have read := h.ofText?_of_spells h.spells_compact Token.isGap_nil
  rwa [List.append_nil] at read

end SimpleLedger.Json
