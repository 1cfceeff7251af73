import SimpleLedger.Proofs.Corpus.Lines

namespace SimpleLedger.Corpus

/-- The answer to request number `i`. Once the answers are used up the status is 503. -/
def replyAt (replies : List Reply) (i : Nat) : Reply :=
  replies[i]?.getD (.status 503)

/-- What comes of the steps of a plan, each sampled from the answer of its own number. -/
def outcomes (base : String) (plan : List Step) (replies : List Reply) :
    List (Except SamplerError (List String)) :=
  plan.mapIdx fun i step => (sample base step (Indexer.answering [replyAt replies i]).connect).1

/-- The ids of the first `k` steps. -/
def idsBefore (all : List (Except SamplerError (List String))) (k : Nat) : List String :=
  (all.take k).flatMap fun outcome => outcome.toOption.getD []

/-- Whether step `k` fails, or the lines of all steps up to it exceed the room. -/
def stops (room : Option Nat) (all : List (Except SamplerError (List String))) (k : Nat) : Bool :=
  all[k]?.any (fun outcome => !outcome.isOk) ||
    room.any fun room => room < 65 * (idsBefore all (k + 1)).length

def firstStop (room : Option Nat) (all : List (Except SamplerError (List String))) : Option Nat :=
  (List.range all.length).find? (stops room all)

/-- What can be seen of a run: its result, the bytes it wrote and the requests it made. -/
structure Visible where
  result : Except SamplerError Nat
  output : Bytes
  requests : List Request

def Outcome.visible (outcome : Outcome) : Visible :=
  { result := outcome.result
    output := Text.utf8 outcome.sink.written.toList
    requests := outcome.requests }

/-- As many bytes as there is room for. -/
def within (room : Option Nat) (bytes : Bytes) : Bytes :=
  room.elim bytes fun room => bytes.take room

/-- What is to be seen of a run that would make these requests with these outcomes. -/
def prescribed (requests : List Request) (all : List (Except SamplerError (List String)))
    (room : Option Nat) : Visible :=
  match firstStop room all with
  | none =>
    let ids := idsBefore all all.length
    { result := .ok ids.length, output := Text.utf8 (lines ids), requests }
  | some k =>
    match all[k]? with
    | some (.error e) =>
      { result := .error e
        output := Text.utf8 (lines (idsBefore all k))
        requests := requests.take (k + 1) }
    | _ =>
      { result := .error (.output "failed to write whole buffer")
        output := within room (Text.utf8 (lines (idsBefore all (k + 1))))
        requests := requests.take (k + 1) }

section Prescribed

variable {request : Request} {requests : List Request} {ids : List String}
  {outcome : Except SamplerError (List String)} {all : List (Except SamplerError (List String))}
  {room : Option Nat}

theorem idsBefore_cons (k : Nat) :
    idsBefore (outcome :: all) (k + 1) = outcome.toOption.getD [] ++ idsBefore all k := by
  rw [idsBefore, List.take_succ_cons, List.flatMap_cons, idsBefore]

theorem stops_succ (fits : ∀ r ∈ room, 65 * ids.length ≤ r) (k : Nat) :
    stops room (.ok ids :: all) (k + 1) = stops (room.map (· - 65 * ids.length)) all k := by
  have counted : (idsBefore (.ok ids :: all) (k + 1 + 1)).length =
      ids.length + (idsBefore all (k + 1)).length := by
    rw [idsBefore_cons, List.length_append]
    rfl
  rw [stops, stops, List.getElem?_cons_succ, counted]
  cases room with
  | none => rfl
  | some room =>
    have enough := fits room rfl
    have same : room < 65 * (ids.length + (idsBefore all (k + 1)).length) ↔
        room - 65 * ids.length < 65 * (idsBefore all (k + 1)).length := by omega
    simp only [Option.any_some, Option.map_some, same]

theorem stops_zero : stops room (.ok ids :: all) 0 = room.any (· < 65 * ids.length) := by
  simp [stops, idsBefore, Except.isOk, Except.toBool, Except.toOption]

theorem firstStop_cons_of_fits (fits : ∀ r ∈ room, 65 * ids.length ≤ r) :
    firstStop room (.ok ids :: all) =
      (firstStop (room.map (· - 65 * ids.length)) all).map (· + 1) := by
  have passes : stops room (.ok ids :: all) 0 = false := by
    rw [stops_zero]
    cases room with
    | none => rfl
    | some r => exact decide_eq_false (Nat.not_lt.mpr (fits r rfl))
  have shifted : stops room (.ok ids :: all) ∘ Nat.succ =
      stops (room.map (· - 65 * ids.length)) all := funext (stops_succ fits)
  rw [firstStop, List.length_cons, List.range_succ_eq_map, List.find?_cons, passes,
    List.find?_map, shifted]
  rfl

theorem firstStop_cons_of_stops (h : stops room (outcome :: all) 0 = true) :
    firstStop room (outcome :: all) = some 0 := by
  rw [firstStop, List.length_cons, List.range_succ_eq_map, List.find?_cons, h]

theorem prescribed_error (e : SamplerError) :
    prescribed (request :: requests) (.error e :: all) room =
      { result := .error e, output := [], requests := [request] } := by
  have first : firstStop room (.error e :: all) = some 0 :=
    firstStop_cons_of_stops (by simp [stops, Except.isOk, Except.toBool])
  rw [prescribed, first]
  simp [idsBefore, Text.utf8]

theorem prescribed_over {r : Nat} (short : r < 65 * ids.length) :
    prescribed (request :: requests) (.ok ids :: all) (some r) =
      { result := .error noRoom
        output := (Text.utf8 (lines ids)).take r
        requests := [request] } := by
  have first : firstStop (some r) (.ok ids :: all) = some 0 :=
    firstStop_cons_of_stops (by simpa [stops_zero] using short)
  rw [prescribed, first]
  simp [idsBefore, Except.toOption, noRoom, within]

theorem within_append {front rest : Bytes} (fits : ∀ r ∈ room, front.length ≤ r) :
    within room (front ++ rest) = front ++ within (room.map (· - front.length)) rest := by
  cases room with
  | none => rfl
  | some r => exact List.take_append.trans (congrArg (· ++ _) (List.take_of_length_le (fits r rfl)))

theorem prescribed_cons (fits : ∀ r ∈ room, 65 * ids.length ≤ r) (h : ∀ id ∈ ids, isTxid id) :
    prescribed (request :: requests) (.ok ids :: all) room =
      let rest := prescribed requests all (room.map (· - 65 * ids.length))
      { result := rest.result.map (ids.length + ·)
        output := Text.utf8 (lines ids) ++ rest.output
        requests := request :: rest.requests } := by
  have size := length_utf8_lines h
  have counted (k : Nat) : idsBefore (.ok ids :: all) (k + 1) = ids ++ idsBefore all k :=
    idsBefore_cons k
  have joined (k : Nat) : Text.utf8 (lines (idsBefore (.ok ids :: all) (k + 1))) =
      Text.utf8 (lines ids) ++ Text.utf8 (lines (idsBefore all k)) := by
    rw [counted, lines_append, Text.utf8_append]
  rw [prescribed, prescribed, firstStop_cons_of_fits fits]
  cases firstStop (room.map (· - 65 * ids.length)) all with
  | none =>
    simp only [Option.map_none, List.length_cons, joined]
    rw [counted, List.length_append]
    rfl
  | some k =>
    have cutOff : within room (Text.utf8 (lines (idsBefore (.ok ids :: all) (k + 1 + 1)))) =
        Text.utf8 (lines ids) ++ within (room.map (· - 65 * ids.length))
          (Text.utf8 (lines (idsBefore all (k + 1)))) := by
      rw [joined, within_append (by simpa only [size] using fits), size]
    simp only [Option.map_some, List.getElem?_cons_succ, List.take_succ_cons, joined k, cutOff]
    cases all[k]? with
    | none => rfl
    | some outcome => cases outcome <;> rfl

end Prescribed

/-- Nothing but the lines of all ids is ever prescribed, up to where the run stops. -/
theorem prescribed_prefix (requests : List Request)
    (all : List (Except SamplerError (List String))) (room : Option Nat) :
    (prescribed requests all room).output <+: Text.utf8 (lines (idsBefore all all.length)) := by
  have upTo (k : Nat) : Text.utf8 (lines (idsBefore all k)) <+:
      Text.utf8 (lines (idsBefore all all.length)) := by
    have parts : idsBefore all all.length = idsBefore all k ++
        (all.drop k).flatMap fun outcome => outcome.toOption.getD [] := by
      rw [idsBefore, idsBefore, ← List.flatMap_append, List.take_append_drop, List.take_length]
    rw [parts, lines_append, Text.utf8_append]
    exact List.prefix_append _ _
  have part (bytes : Bytes) : within room bytes <+: bytes := by
    cases room with
    | none => exact List.prefix_rfl
    | some r => exact List.take_prefix r bytes
  rw [prescribed]
  cases firstStop room all with
  | none => exact List.prefix_rfl
  | some k =>
    dsimp only
    split
    · exact upTo k
    · exact (part _).trans (upTo (k + 1))

end SimpleLedger.Corpus
