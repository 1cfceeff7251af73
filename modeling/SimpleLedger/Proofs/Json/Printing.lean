import SimpleLedger.Json
import SimpleLedger.Proofs.Json.Grammar
import SimpleLedger.Proofs.Text.Numeral

namespace SimpleLedger.Json

/-- Every number in the value is whole, and fits a signed or an unsigned 64-bit word. -/
inductive Exact : Json → Prop
  | null : Exact .null
  | bool (value : Bool) : Exact (.bool value)
  | int {n : Int} : -0x8000000000000000 ≤ n → n < 0x10000000000000000 → Exact (.int n)
  | str (text : String) : Exact (.str text)
  | arr {items : List Json} : (∀ item ∈ items, Exact item) → Exact (.arr items)
  | obj {members : List (String × Json)} : (∀ member ∈ members, Exact member.2) →
    Exact (.obj members)

theorem Exact.nat {n : Nat} (bound : n < 0x10000000000000000) : Exact (.nat n) :=
  .int (by omega) (by omega)

namespace Piece

/-- The piece as which a character of a text is written. -/
def ofChar (c : Char) : Piece :=
  if c.toNat < 32 ∧ c ≠ '\n' ∧ c ≠ '\r' ∧ c ≠ '\t' ∧ c.toNat ≠ 8 ∧ c.toNat ≠ 12 then .unit c.toNat
  else .char c

def ofText (text : String) : List Piece :=
  text.toList.map ofChar

theorem ofChar_of_high {c : Char} (high : 32 ≤ c.toNat) : ofChar c = .char c :=
  if_neg fun control => Nat.not_lt.mpr high control.1

theorem denotes_control : ∀ n < 32, Hex.Denotes '0' (n / 4096) ∧ Hex.Denotes '0' (n / 256 % 16) ∧
    Hex.Denotes (Nat.digitChar (n / 16)) (n / 16 % 16) ∧
    Hex.Denotes (Nat.digitChar (n % 16)) (n % 16) := by
  simp only [Hex.Denotes]
  decide

theorem spelling_escaped {pieces : List Piece} {text : List Char} (h : Spelling pieces text)
    (c : Char) : Spelling (ofChar c :: pieces) (escaped c ++ text) := by
  fun_cases escaped c with
  | case1 quote =>
    obtain rfl := quote
    exact .escape (by decide) h
  | case2 _ slash =>
    obtain rfl := slash
    exact .escape (by decide) h
  | case3 _ _ newLine => exact newLine ▸ .escape (by decide) h
  | case4 _ _ _ carriageReturn => exact carriageReturn ▸ .escape (by decide) h
  | case5 _ _ _ _ tab => exact tab ▸ .escape (by decide) h
  | case6 _ _ _ _ _ backspace =>
    obtain rfl : c = '\x08' := Char.toNat_inj.mp backspace
    exact .escape (by decide) h
  | case7 _ _ _ _ _ _ formFeed =>
    obtain rfl : c = '\x0c' := Char.toNat_inj.mp formFeed
    exact .escape (by decide) h
  | case8 _ _ newLine carriageReturn tab backspace formFeed control =>
    obtain ⟨first, second, third, fourth⟩ := denotes_control c.toNat control
    rw [ofChar, if_pos ⟨control, newLine, carriageReturn, tab, backspace, formFeed⟩]
    exact .unit (by omega) first second third fourth h
  | case9 quote slash _ _ _ _ _ high =>
    rw [ofChar_of_high (Nat.le_of_not_lt high)]
    exact .plain quote slash (Nat.le_of_not_lt high) h

theorem spelling_ofText (text : String) : Spelling (ofText text) (text.toList.flatMap escaped) := by
  rw [ofText]
  induction text.toList with
  | nil => exact .nil
  | cons c text ih => exact spelling_escaped ih c

end Piece

theorem toDigits_head {n : Nat} (positive : 0 < n) :
    ∃ c more, Nat.toDigits 10 n = c :: more ∧ c ≠ '0' := by
  induction n using Nat.strongRecOn with
  | ind n ih =>
    rw [Nat.toDigits_eq_if (by decide)]
    split
    next low =>
      have : ∀ d < 10, 0 < d → d.digitChar ≠ '0' := by decide
      exact ⟨_, [], rfl, this n low positive⟩
    next high =>
      obtain ⟨c, more, eq, other⟩ := ih (n / 10) (by omega) (by omega)
      exact ⟨c, _, by rw [eq, List.cons_append], other⟩

/-- A whole number is written with its sign, if it is negative, and its digits. -/
theorem number_toDigits (negative : Bool) (n : Nat) :
    Number ⟨negative, n, 0⟩ true (minus negative ++ Nat.toDigits 10 n) := by
  have digits : IsDigits (Nat.toDigits 10 n) :=
    ⟨Nat.toDigits_ne_nil, Text.isDigit_of_mem_toDigits⟩
  have zero : (Nat.toDigits 10 n).head? = some '0' → Nat.toDigits 10 n = ['0'] := by
    rcases Nat.eq_zero_or_pos n with rfl | positive
    · exact fun _ => rfl
    · obtain ⟨c, more, eq, other⟩ := toDigits_head positive
      rw [eq]
      exact fun first => absurd (Option.some.inj first) other
  have value : Text.digitsValue (Nat.toDigits 10 n) = n := Nat.ofDigitChars_ten_toDigits
  have spelled := @Number.intro negative _ _ _ _ _ digits zero .none .none
  simpa [Decimal.ofDigits, value] using spelled

theorem number_toString (n : Int) :
    Number ⟨decide (n < 0), n.natAbs, 0⟩ true (toString n).toList := by
  cases n with
  | ofNat n =>
    have written : (toString (Int.ofNat n)).toList = Nat.toDigits 10 n := Text.toList_toString n
    rw [written]
    exact number_toDigits false n
  | negSucc n =>
    have written : (toString (Int.negSucc n)).toList = '-' :: Nat.toDigits 10 (n + 1) := by
      have spelled : toString (Int.negSucc n) = "-" ++ toString (n + 1) := rfl
      rw [spelled, String.toList_append, Text.toList_toString]
      rfl
    rw [written, decide_eq_true (Int.negSucc_lt_zero n)]
    exact number_toDigits true (n + 1)

mutual

/-- A value as it is written. Only whole numbers are. -/
def written : Json → Written
  | null => .null
  | bool value => .bool value
  | int n => .number ⟨decide (n < 0), n.natAbs, 0⟩ true
  | real _ => .null
  | str text => .string (Piece.ofText text)
  | arr items => .array (writtenItems items)
  | obj members => .object (writtenMembers members)

def writtenItems : List Json → List Written
  | [] => []
  | item :: items => written item :: writtenItems items

def writtenMembers : List (String × Json) → List (List Piece × Written)
  | [] => []
  | (name, value) :: members => (Piece.ofText name, written value) :: writtenMembers members

end

theorem Token.isGap_nil : IsGap [] :=
  List.forall_mem_nil _

theorem Token.isGap_newLine (level : Nat) : IsGap (newLine level) := by
  intro c mem
  rcases List.mem_cons.mp mem with rfl | indent
  · rfl
  · rw [(List.mem_replicate.mp indent).2]
    rfl

/-- The items or members after the first, each with a comma and a gap before it, and the end. -/
def listed (gap ending : List Char) : List (List Char) → List Char
  | [] => ending
  | text :: texts => ',' :: gap ++ text ++ listed gap ending texts

open Token (IsGap isGap_nil isGap_newLine)

section Containers

variable {items : List Json} {members : List (String × Json)} {gap space ending : List Char}
  {print : Json → List Char}

theorem spelling_items {item : Json} (first : Spelling (.value item.written) (print item))
    (others : ∀ other ∈ items, Spelling (.value other.written) (print other)) (blank : IsGap gap)
    (blank' : IsGap space) :
    ∃ text, gap ++ print item ++ listed gap (space ++ [']']) (items.map print) = text ++ [']'] ∧
      Spelling (.items (writtenItems (item :: items))) text := by
  induction items generalizing item with
  | nil =>
    refine ⟨gap ++ print item ++ space, ?_, .lastItem (.element blank first blank')⟩
    rw [List.map_nil, listed, List.append_assoc (gap ++ print item)]
  | cons other items ih =>
    obtain ⟨second, others⟩ := List.forall_mem_cons.mp others
    obtain ⟨text, printed, spelled⟩ := ih second others
    refine ⟨gap ++ print item ++ [] ++ ',' :: text, ?_,
      .moreItems (.element blank first isGap_nil) spelled⟩
    rw [List.map_cons, listed, List.cons_append, List.cons_append, printed]
    simp

theorem spelling_array {item : Json}
    (h : ∀ one ∈ item :: items, Spelling (.value one.written) (print one)) (blank : IsGap gap)
    (blank' : IsGap space) :
    Spelling (.value (arr (item :: items)).written)
      ('[' :: (gap ++ print item ++ listed gap (space ++ [']']) (items.map print))) := by
  obtain ⟨first, others⟩ := List.forall_mem_cons.mp h
  obtain ⟨text, printed, spelled⟩ := spelling_items first others blank blank'
  rw [printed]
  exact .array spelled

/-- A member as it is printed, with a gap before its value. -/
def printedMember (gap : List Char) (print : Json → List Char) (member : String × Json) :
    List Char :=
  string member.1 ++ ':' :: (gap ++ print member.2)

theorem spelling_printedMember {member : String × Json}
    (h : Spelling (.value member.2.written) (print member.2)) {before between after : List Char}
    (blank : IsGap before) (blank' : IsGap between) (blank'' : IsGap after) :
    Spelling (.member (Piece.ofText member.1) member.2.written)
      (before ++ printedMember between print member ++ after) := by
  have spelled := Spelling.member blank (Piece.spelling_ofText member.1) isGap_nil
    (.element blank' h blank'')
  simpa [printedMember, string] using spelled

theorem spelling_members {member : String × Json}
    (first : Spelling (.value member.2.written) (print member.2))
    (others : ∀ other ∈ members, Spelling (.value other.2.written) (print other.2))
    {between : List Char} (blank : IsGap gap) (blank' : IsGap between) (blank'' : IsGap space) :
    ∃ text, gap ++ printedMember between print member ++
        listed gap (space ++ ['\x7d']) (members.map (printedMember between print)) =
          text ++ ['\x7d'] ∧
      Spelling (.members (writtenMembers (member :: members))) text := by
  induction members generalizing member with
  | nil =>
    refine ⟨gap ++ printedMember between print member ++ space, ?_,
      .lastMember (spelling_printedMember first blank blank' blank'')⟩
    rw [List.map_nil, listed, List.append_assoc (gap ++ _)]
  | cons other members ih =>
    obtain ⟨second, others⟩ := List.forall_mem_cons.mp others
    obtain ⟨text, printed, spelled⟩ := ih second others
    refine ⟨gap ++ printedMember between print member ++ [] ++ ',' :: text, ?_,
      .moreMembers (spelling_printedMember first blank blank' isGap_nil) spelled⟩
    rw [List.map_cons, listed, List.cons_append, List.cons_append, printed]
    simp

theorem spelling_object {member : String × Json}
    (h : ∀ one ∈ member :: members, Spelling (.value one.2.written) (print one.2))
    {between : List Char} (blank : IsGap gap) (blank' : IsGap between) (blank'' : IsGap space) :
    Spelling (.value (obj (member :: members)).written)
      ('\x7b' :: (gap ++ printedMember between print member ++
        listed gap (space ++ ['\x7d']) (members.map (printedMember between print)))) := by
  obtain ⟨first, others⟩ := List.forall_mem_cons.mp h
  obtain ⟨text, printed, spelled⟩ := spelling_members first others blank blank' blank''
  rw [printed]
  exact .object spelled

end Containers

theorem compactItems_eq (items : List Json) :
    compactItems items = listed [] ([] ++ [']']) (items.map compact) := by
  induction items with
  | nil => rfl
  | cons item items ih =>
    rw [compactItems, ih]
    rfl

theorem compactMembers_eq (members : List (String × Json)) :
    compactMembers members =
      listed [] ([] ++ ['\x7d']) (members.map (printedMember [] compact)) := by
  induction members with
  | nil => rfl
  | cons member members ih =>
    rw [compactMembers, ih]
    simp [listed, printedMember]

theorem indentedItems_eq (level : Nat) (items : List Json) :
    indentedItems level items = listed (newLine (level + 1)) (newLine level ++ [']'])
      (items.map (indented (level + 1))) := by
  induction items with
  | nil => rfl
  | cons item items ih =>
    rw [indentedItems, ih]
    rfl

theorem indentedMembers_eq (level : Nat) (members : List (String × Json)) :
    indentedMembers level members = listed (newLine (level + 1)) (newLine level ++ ['\x7d'])
      (members.map (printedMember [' '] (indented (level + 1)))) := by
  induction members with
  | nil => rfl
  | cons member members ih =>
    rw [indentedMembers, ih]
    simp [listed, printedMember]

theorem Exact.spells_compact {value : Json} (h : Exact value) :
    Spelling (.value value.written) value.compact := by
  induction h with
  | null => exact .null
  | bool value => cases value with
    | true => exact .true
    | false => exact .false
  | int => exact .number (number_toString _)
  | str text => exact .string (Piece.spelling_ofText text)
  | @arr items _ ih =>
    cases items with
    | nil => exact .noItems isGap_nil
    | cons item items =>
      rw [compact, compactItems_eq]
      exact spelling_array ih isGap_nil isGap_nil
  | @obj members _ ih =>
    cases members with
    | nil => exact .noMembers isGap_nil
    | cons member members =>
      have printed := spelling_object ih isGap_nil isGap_nil isGap_nil
      rw [compact, compactMembers_eq]
      simpa [printedMember] using printed

theorem Exact.spells_indented {value : Json} (h : Exact value) (level : Nat) :
    Spelling (.value value.written) (indented level value) := by
  have space : IsGap [' '] := List.forall_mem_singleton.mpr rfl
  induction h generalizing level with
  | null => exact .null
  | bool value => cases value with
    | true => exact .true
    | false => exact .false
  | int => exact .number (number_toString _)
  | str text => exact .string (Piece.spelling_ofText text)
  | @arr items _ ih =>
    have nested := fun item mem => ih item mem (level + 1)
    cases items with
    | nil => exact .noItems isGap_nil
    | cons item items =>
      rw [indented, indentedItems_eq]
      exact spelling_array nested (isGap_newLine (level + 1)) (isGap_newLine level)
  | @obj members _ ih =>
    have nested := fun member mem => ih member mem (level + 1)
    cases members with
    | nil => exact .noMembers isGap_nil
    | cons member members =>
      have printed := spelling_object nested (isGap_newLine (level + 1)) space (isGap_newLine level)
      rw [indented, indentedMembers_eq]
      simpa [printedMember] using printed

end SimpleLedger.Json
