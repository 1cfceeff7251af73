import SimpleLedger.Proofs.Corpus.Lines
import SimpleLedger.Proofs.Json.Accepted
import SimpleLedger.Proofs.Outcome

namespace SimpleLedger.Corpus

open Json (Piece Written Spelling)
open Json.Piece (Meaning)

namespace Body

/-- The names of members all have a meaning, and one only means this name: it has this value. -/
def Only (name : String) (value : Written) (members : List (List Piece × Written)) : Prop :=
  ∃ before key after, members = before ++ (key, value) :: after ∧ Meaning key name.toList ∧
    ∀ member ∈ before ++ after, ∃ other ≠ name, Meaning member.1 other.toList

/-- An object with an id as its only `txid`. -/
def IsMatch (found : Written) (id : String) : Prop :=
  ∃ members pieces, found = .object members ∧ Only "txid" (.string pieces) members ∧
    Meaning pieces id.toList

/-- An object of whose members none that means `txid` is a string with a meaning. -/
def LacksId (found : Written) : Prop :=
  ∃ members, found = .object members ∧ ∀ key pieces id, (key, .string pieces) ∈ members →
    Meaning key "txid".toList → ¬ Meaning pieces id

variable {name : String} {value found : Written} {members : List (List Piece × Written)}

theorem meaning_unique {pieces : List Piece} {one other : List Char} (h : Meaning pieces one)
    (h' : Meaning pieces other) : one = other := by
  have first := h.charsOnto?_eq []
  rw [h'.charsOnto?_eq []] at first
  exact (Option.some.inj first).symm

/-- All names have a meaning where only one means some name. -/
theorem Only.exists_meaning (h : Only name value members) :
    ∀ member ∈ members, ∃ other : String, Meaning member.1 other.toList := by
  obtain ⟨before, key, after, rfl, same, others⟩ := h
  intro member mem
  rcases List.mem_append.mp mem with earlier | mem
  · obtain ⟨other, _, means⟩ := others member (List.mem_append_left after earlier)
    exact ⟨other, means⟩
  · rcases List.mem_cons.mp mem with rfl | later
    · exact ⟨name, same⟩
    · obtain ⟨other, _, means⟩ := others member (List.mem_append_right before later)
      exact ⟨other, means⟩

theorem named_iff (name : String) (member : List Piece × Written) :
    (Piece.text? member.1 == some name) = true ↔ Meaning member.1 name.toList := by
  rw [beq_iff_eq, Piece.text?_eq_some_iff]

theorem only_of_only? (h : only? name members = some value) : Only name value members := by
  unfold only? at h
  split at h
  next texts =>
    split at h
    next key value' single =>
      obtain rfl := Option.some.inj h
      obtain ⟨before, after, rfl, earlier, same, later⟩ := List.filter_eq_cons_iff.mp single
      refine ⟨before, key, after, rfl, (named_iff _ _).mp same, fun member mem => ?_⟩
      have different : ¬ Meaning member.1 name.toList := by
        rw [← named_iff]
        rcases List.mem_append.mp mem with mem | mem
        · exact earlier member mem
        · exact List.filter_eq_nil_iff.mp later member mem
      have inside : member ∈ before ++ (key, value') :: after := by
        rw [List.mem_append] at mem ⊢
        exact mem.imp_right (List.mem_cons_of_mem _)
      obtain ⟨other, read⟩ := Option.isSome_iff_exists.mp (List.all_eq_true.mp texts member inside)
      have means := Piece.text?_eq_some_iff.mp read
      exact ⟨other, fun same => different (same ▸ means), means⟩
    next => cases h
  next => cases h

theorem Only.only?_eq (h : Only name value members) : only? name members = some value := by
  have texts : ∀ member ∈ members, (Piece.text? member.1).isSome := by
    intro member mem
    obtain ⟨other, means⟩ := h.exists_meaning member mem
    rw [Piece.text?_eq_some_iff.mpr means]
    rfl
  obtain ⟨before, key, after, rfl, same, others⟩ := h
  have none : ∀ member ∈ before ++ after, ¬ (Piece.text? member.1 == some name) = true := by
    intro member mem
    obtain ⟨other, different, means⟩ := others member mem
    rw [named_iff]
    exact fun means' => different (String.toList_inj.mp (meaning_unique means means'))
  obtain ⟨earlier, later⟩ := List.forall_mem_append.mp none
  have single : (before ++ (key, value) :: after).filter
      (fun member => Piece.text? member.1 == some name) = [(key, value)] :=
    List.filter_eq_cons_iff.mpr
      ⟨before, after, rfl, earlier, (named_iff _ _).mpr same, List.filter_eq_nil_iff.mpr later⟩
  rw [only?, if_pos (List.all_eq_true.mpr texts), single]

theorem only?_eq_some_iff : only? name members = some value ↔ Only name value members :=
  ⟨only_of_only?, Only.only?_eq⟩

theorem Only.eq_of_mem (h : Only name value members) {key : List Piece} {found : Written}
    (mem : (key, found) ∈ members) (same : Meaning key name.toList) : found = value := by
  obtain ⟨before, key', after, rfl, _, others⟩ := h
  have elsewhere : (key, found) ∉ before ++ after := by
    intro mem
    obtain ⟨other, different, means⟩ := others _ mem
    exact different (String.toList_inj.mp (meaning_unique means same))
  rw [List.mem_append, not_or] at elsewhere
  rcases List.mem_append.mp mem with earlier | mem
  · exact absurd earlier elsewhere.1
  · rcases List.mem_cons.mp mem with here | later
    · exact (Prod.mk.inj here).2
    · exact absurd later elsewhere.2

theorem Only.exists_mem (h : Only name value members) :
    ∃ key, (key, value) ∈ members ∧ Meaning key name.toList := by
  obtain ⟨before, key, after, rfl, same, _⟩ := h
  exact ⟨key, List.mem_append_right before List.mem_cons_self, same⟩

theorem IsMatch.id?_eq {id : String} (h : IsMatch found id) : id? found = some id := by
  obtain ⟨members, pieces, rfl, only, means⟩ := h
  rw [id?, field?, only?_eq_some_iff.mpr only]
  exact Piece.text?_eq_some_iff.mpr means

theorem LacksId.id?_eq (h : LacksId found) : id? found = none := by
  obtain ⟨members, rfl, lacks⟩ := h
  cases read : id? (.object members) with
  | none => rfl
  | some id =>
    unfold id? at read
    split at read
    next pieces single =>
      obtain ⟨key, mem, same⟩ := (only?_eq_some_iff.mp single).exists_mem
      exact absurd (Piece.text?_eq_some_iff.mp read) (lacks key pieces _ mem same)
    next => cases read

theorem ids?_object_eq_some_iff {ids : List String} : ids? (.object members) = some ids ↔
    ∃ entries, Only "c" (.array entries) members ∧ entries.map id? = ids.map some := by
  rw [ids?, field?]
  constructor
  · intro h
    split at h
    next entries single => exact ⟨entries, only?_eq_some_iff.mp single, mapM_eq_some_iff.mp h⟩
    next => cases h
  · rintro ⟨entries, only, each⟩
    rw [only?_eq_some_iff.mpr only]
    exact mapM_eq_some_iff.mpr each

theorem ids?_of_isMatch {entries : List Written} {ids : List String}
    (only : Only "c" (.array entries) members) (each : List.Forall₂ IsMatch entries ids) :
    ids? (.object members) = some ids := by
  refine ids?_object_eq_some_iff.mpr ⟨entries, only, ?_⟩
  clear only
  induction each with
  | nil => rfl
  | cons first _ ih => rw [List.map_cons, first.id?_eq, ih, List.map_cons]

/-- Why an object tells no ids. -/
inductive Unsound (members : List (List Piece × Written)) : Prop
  /-- It has no `c`. -/
  | missing : (∀ member ∈ members, ¬ Meaning member.1 "c".toList) → Unsound members
  /-- Its `c` is no array. -/
  | scalar {key : List Piece} {value : Written} : (key, value) ∈ members →
    Meaning key "c".toList → (∀ entries, value ≠ .array entries) → Unsound members
  /-- A match in its `c` has no id. -/
  | lacking {key : List Piece} {entries : List Written} {entry : Written} :
    (key, .array entries) ∈ members → Meaning key "c".toList → entry ∈ entries → LacksId entry →
    Unsound members

theorem Unsound.ids?_eq (h : Unsound members) : ids? (.object members) = none := by
  cases read : ids? (.object members) with
  | none => rfl
  | some ids =>
    obtain ⟨entries, only, each⟩ := ids?_object_eq_some_iff.mp read
    cases h with
    | missing none =>
      obtain ⟨key, mem, same⟩ := only.exists_mem
      exact absurd same (none _ mem)
    | scalar mem same other => exact absurd (only.eq_of_mem mem same) (other entries)
    | lacking mem same inside lacks =>
      obtain rfl := Written.array.inj (only.eq_of_mem mem same)
      have some := List.mem_map_of_mem (f := id?) inside
      rw [each, lacks.id?_eq] at some
      obtain ⟨_, _, absent⟩ := List.mem_map.mp some
      cases absent

end Body

/-- 64 hexadecimal digits of either case. -/
def IsId (text : String) : Prop :=
  text.toList.length = 64 ∧ ∀ c ∈ text.toList, IsHexCode c.toNat

variable {body : String} {ids before after : List String} {limit : Nat}

theorem idsOfBody_of_isId (read : Body.ofText? body = some ids)
    (all : ∀ id ∈ ids.take limit, IsId id) : idsOfBody limit body = .ok (ids.take limit) := by
  rw [idsOfBody, read]
  apply mapM_eq_ok_iff_map_eq.mpr
  apply List.map_congr_left
  intro id mem
  exact if_pos (isTxid_iff.mpr (all id mem))

theorem idsOfBody_of_first {id : String} (read : Body.ofText? body = some ids)
    (taken : ids.take limit = before ++ id :: after) (earlier : ∀ one ∈ before, IsId one)
    (other : ¬ IsId id) : idsOfBody limit body = .error (.invalidTxid id) := by
  rw [idsOfBody, read]
  dsimp only
  rw [taken]
  apply mapM_eq_error_of_first
  · intro one mem
    exact ⟨one, if_pos (isTxid_iff.mpr (earlier one mem))⟩
  · exact if_neg fun txid => other (isTxid_iff.mp txid)

theorem sample_body (base : String) (step : Step) (body : String) (replies : List Reply)
    (sent : List Request) :
    sample base step ⟨.answering (.body body :: replies), sent⟩ =
      (idsOfBody step.limit body, ⟨.answering replies, sent ++ [step.request base]⟩) :=
  rfl

theorem requests_run_single (base : String) (step : Step) (body : String) (replies : List Reply)
    (sink : Sink) :
    (run base [step] (Indexer.answering (.body body :: replies)).connect sink).requests =
      [step.request base] := by
  rw [run, Indexer.connect, sample_body]
  split
  next sampled =>
    obtain ⟨_, rfl⟩ := Prod.mk.inj sampled
    rfl
  next sampled =>
    obtain ⟨_, rfl⟩ := Prod.mk.inj sampled
    split <;> rfl

/-- A sampling sends one request, and takes what the body means that answers it: the first ids up to
the limit, if they are such, and no id of a body that lacks one anywhere. -/
theorem sample_by_meaning (base : String) (step : Step) (body : String) (replies : List Reply)
    (sent : List Request) {members : List (List Piece × Written)}
    (json : Spelling (.element (.object members)) body.toList) :
    let sampled := sample base step ⟨.answering (.body body :: replies), sent⟩
    sampled.2 = ⟨.answering replies, sent ++ [step.request base]⟩ ∧
      (∀ sink, (run base [step] (Indexer.answering (.body body :: replies)).connect sink).requests =
        [step.request base]) ∧
      (∀ entries ids, Body.Only "c" (.array entries) members →
        List.Forall₂ Body.IsMatch entries ids →
        ((∀ id ∈ ids.take step.limit, IsId id) → sampled.1 = .ok (ids.take step.limit)) ∧
        ∀ before id after, ids.take step.limit = before ++ id :: after →
          (∀ one ∈ before, IsId one) → ¬ IsId id → sampled.1 = .error (.invalidTxid id)) ∧
      (Body.Unsound members → sampled.1 = .error .invalidResponse) := by
  have object : Written.ofText? body = some (.object members) :=
    Written.ofText?_eq_some_iff.mpr json
  have read : Body.ofText? body = Body.ids? (.object members) := by
    rw [Body.ofText?, object, Option.bind_some]
  refine ⟨rfl, requests_run_single base step body replies, ?_, ?_⟩
  · intro entries ids only each
    have found := read.trans (Body.ids?_of_isMatch only each)
    exact ⟨idsOfBody_of_isId found, fun _ _ _ => idsOfBody_of_first found⟩
  · intro unsound
    show idsOfBody step.limit body = .error .invalidResponse
    rw [idsOfBody, read, unsound.ids?_eq]

/-- An id of digits of both cases. -/
def mixedId : String :=
  "0123456789abcdefABCDEF0123456789abcdefABCDEF0123456789abcdefABCD"

/-- A body with escapes in its names, a value that means nothing, and a match that is no id. -/
def escapedBody : String :=
  "\x7b \"x\" : [\"\\ud800\"] ,\n\"\\u0063\":[ \x7b\"tx\\u0069d\" : \"" ++ mixedId ++
    "\"\x7d , \x7b\"txid\":\"none\"\x7d ]\x7d"

/-- The matches of the body. -/
def escapedMatches : List Written :=
  [.object [(Piece.ofText "tx" ++ .unit 0x69 :: Piece.ofText "d", .string (Piece.ofText mixedId))],
    .object [(Piece.ofText "txid", .string (Piece.ofText "none"))]]

/-- The members of the body. -/
def escapedMembers : List (List Piece × Written) :=
  [(Piece.ofText "x", .array [.string [.unit 0xd800]]), ([.unit 0x63], .array escapedMatches)]

theorem sample_by_meaning_of_escapes :
    sample "/q/" ⟨.send, 1⟩ (Indexer.answering [.body escapedBody]).connect =
        (.ok [mixedId], ⟨.answering [], [Step.request "/q/" ⟨.send, 1⟩]⟩) ∧
      (sample "/q/" ⟨.send, 2⟩ (Indexer.answering [.body escapedBody]).connect).1 =
        .error (.invalidTxid "none") := by
  have json : Spelling (.element (.object escapedMembers)) escapedBody.toList :=
    Written.ofText?_eq_some_iff.mp (by cbv)
  have only : Body.Only "c" (.array escapedMatches) escapedMembers :=
    Body.only?_eq_some_iff.mp rfl
  have each : List.Forall₂ Body.IsMatch escapedMatches [mixedId, "none"] :=
    .cons ⟨_, _, rfl, Body.only?_eq_some_iff.mp rfl, Piece.meaning_ofText _⟩
      (.cons ⟨_, _, rfl, Body.only?_eq_some_iff.mp rfl, Piece.meaning_ofText _⟩ .nil)
  have isId : IsId mixedId := isTxid_iff.mp (by decide)
  have noId : ¬ IsId "none" := fun txid => absurd (isTxid_iff.mpr txid) (by decide)
  have first := sample_by_meaning "/q/" ⟨.send, 1⟩ escapedBody [] [] json
  have both := sample_by_meaning "/q/" ⟨.send, 2⟩ escapedBody [] [] json
  have taken := (first.2.2.1 _ _ only each).1 (List.forall_mem_singleton.mpr isId)
  refine ⟨Prod.ext taken first.1, ?_⟩
  exact (both.2.2.1 _ _ only each).2 [mixedId] "none" [] rfl (List.forall_mem_singleton.mpr isId) noId

end SimpleLedger.Corpus
