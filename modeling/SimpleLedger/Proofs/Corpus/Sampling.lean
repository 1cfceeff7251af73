import SimpleLedger.Proofs.Outcome
import SimpleLedger.Proofs.Corpus.Prescribed

namespace SimpleLedger.Corpus

theorem sample_answering (base : String) (step : Step) (replies : List Reply)
    (sent : List Request) :
    sample base step ⟨.answering replies, sent⟩ =
      ((sample base step (Indexer.answering [replyAt replies 0]).connect).1,
        ⟨.answering replies.tail, sent ++ [step.request base]⟩) := by
  cases replies with
  | nil => rfl
  | cons reply replies => cases reply <;> rfl

theorem outcomes_cons (base : String) (step : Step) (plan : List Step) (replies : List Reply) :
    outcomes base (step :: plan) replies =
      (sample base step (Indexer.answering [replyAt replies 0]).connect).1 ::
        outcomes base plan replies.tail := by
  rw [outcomes, List.mapIdx_cons, outcomes]
  congr 2
  funext i next
  cases replies <;> rfl

/-- Only ids are ever sampled. -/
theorem isTxid_of_sample {base : String} {step : Step} {connection : Connection}
    {ids : List String} (h : (sample base step connection).1 = .ok ids) : ∀ id ∈ ids, isTxid id := by
  unfold sample at h
  split at h
  next body _ _ =>
    change idsOfBody step.limit body = .ok ids at h
    unfold idsOfBody at h
    split at h
    next => cases h
    next found _ =>
      refine forall_of_mapM_eq_ok h fun text id checked => ?_
      split at checked
      next isId =>
        cases checked
        exact isId
      next => cases checked
  next => cases h

theorem isTxid_of_mem_idsBefore {base : String} {plan : List Step} {replies : List Reply} {k : Nat}
    {id : String} (mem : id ∈ idsBefore (outcomes base plan replies) k) : isTxid id := by
  obtain ⟨outcome, taken, mem⟩ := List.mem_flatMap.mp mem
  obtain ⟨i, _, sampled⟩ := List.mem_mapIdx.mp (List.mem_of_mem_take taken)
  cases outcome with
  | error e => cases mem
  | ok ids => exact isTxid_of_sample sampled id mem

section Steps

variable {base : String} {step : Step} {plan : List Step} {replies : List Reply}
  {sent : List Request} {sink : Sink} {ids : List String}

theorem run_of_error {e : SamplerError}
    (sampled : (sample base step (Indexer.answering [replyAt replies 0]).connect).1 = .error e) :
    run base (step :: plan) ⟨.answering replies, sent⟩ sink =
      { result := .error e
        sink
        connection := ⟨.answering replies.tail, sent ++ [step.request base]⟩ } := by
  rw [run, sample_answering, sampled]

theorem run_of_fits
    (sampled : (sample base step (Indexer.answering [replyAt replies 0]).connect).1 = .ok ids)
    (fits : ∀ r ∈ sink.room, 65 * ids.length ≤ r) :
    run base (step :: plan) ⟨.answering replies, sent⟩ sink =
      let rest := run base plan ⟨.answering replies.tail, sent ++ [step.request base]⟩
        (sink.after ids)
      { rest with result := rest.result.map (ids.length + ·) } := by
  rw [run, sample_answering, sampled]
  dsimp only
  rw [Sink.writeLines_of_fits (isTxid_of_sample sampled) fits]

theorem visible_of_fits
    (sampled : (sample base step (Indexer.answering [replyAt replies 0]).connect).1 = .ok ids)
    (fits : ∀ r ∈ sink.room, 65 * ids.length ≤ r) :
    (run base (step :: plan) ⟨.answering replies, sent⟩ sink).visible =
      let rest := (run base plan ⟨.answering replies.tail, sent ++ [step.request base]⟩
        (sink.after ids)).visible
      { rest with result := rest.result.map (ids.length + ·) } := by
  rw [run_of_fits sampled fits]
  rfl

theorem run_of_over
    (sampled : (sample base step (Indexer.answering [replyAt replies 0]).connect).1 = .ok ids)
    {r : Nat} (limited : sink.room = some r) (short : r < 65 * ids.length) :
    run base (step :: plan) ⟨.answering replies, sent⟩ sink =
      { result := .error noRoom
        sink := ⟨sink.written ++ String.ofList ((lines ids).take r), some 0⟩
        connection := ⟨.answering replies.tail, sent ++ [step.request base]⟩ } := by
  obtain ⟨written, room⟩ := sink
  subst limited
  rw [run, sample_answering, sampled]
  dsimp only
  rw [Sink.writeLines_of_over (isTxid_of_sample sampled) short]

end Steps

/-- What can be seen of a run is what its outcomes prescribe, after what was written and sent
before. -/
theorem visible_run (base : String) (plan : List Step) (replies : List Reply)
    (sent : List Request) (sink : Sink) :
    (run base plan ⟨.answering replies, sent⟩ sink).visible =
      let seen := prescribed (plan.map (Step.request base)) (outcomes base plan replies) sink.room
      { seen with
        output := Text.utf8 sink.written.toList ++ seen.output
        requests := sent ++ seen.requests } := by
  -- every step leaves fewer answers and less room, so both vary along the plan
  induction plan generalizing replies sent sink with
  | nil =>
    have nothing : Text.utf8 sink.written.toList ++ Text.utf8 (lines []) =
        Text.utf8 sink.written.toList := List.append_nil _
    exact congrArg₂ (Visible.mk (.ok 0)) nothing.symm (List.append_nil sent).symm
  | cons step plan ih =>
    rw [outcomes_cons, List.map_cons]
    cases sampled : (sample base step (Indexer.answering [replyAt replies 0]).connect).1 with
    | error e =>
      rw [run_of_error sampled, prescribed_error]
      dsimp only
      rw [List.append_nil]
      rfl
    | ok ids =>
      have txids := isTxid_of_sample sampled
      rcases sink.fits_or_over (65 * ids.length) with fits | ⟨r, limited, short⟩
      · have rest := ih replies.tail (sent ++ [step.request base]) (sink.after ids)
        rw [visible_of_fits sampled fits, rest, prescribed_cons fits txids, Sink.after]
        dsimp only
        rw [String.toList_append, String.toList_ofList, Text.utf8_append, List.append_assoc,
          List.append_assoc, List.singleton_append]
      · have cut : Text.utf8 ((lines ids).take r) = (Text.utf8 (lines ids)).take r :=
          Text.utf8_take_of_isAscii (isAscii_lines txids) r
        rw [run_of_over sampled limited short, limited, prescribed_over short, Outcome.visible,
          String.toList_append, String.toList_ofList, Text.utf8_append, cut]
        rfl

/-- Each request takes one of the answers. -/
theorem connection_run (base : String) (plan : List Step) (replies : List Reply)
    (sent : List Request) (sink : Sink) :
    ∃ requests, (run base plan ⟨.answering replies, sent⟩ sink).connection =
      ⟨.answering (replies.drop requests.length), sent ++ requests⟩ := by
  induction plan generalizing replies sent sink with
  | nil => exact ⟨[], by rw [List.append_nil]; rfl⟩
  | cons step plan ih =>
    have one : replies.tail = replies.drop 1 := List.drop_one.symm
    cases sampled : (sample base step (Indexer.answering [replyAt replies 0]).connect).1 with
    | error e => exact ⟨[step.request base], by rw [run_of_error sampled, one]; rfl⟩
    | ok ids =>
      rcases sink.fits_or_over (65 * ids.length) with fits | ⟨r, limited, short⟩
      · obtain ⟨requests, left⟩ := ih replies.tail (sent ++ [step.request base]) (sink.after ids)
        refine ⟨step.request base :: requests, ?_⟩
        rw [run_of_fits sampled fits]
        dsimp only
        rw [left, one, List.drop_drop, List.append_assoc, List.length_cons, Nat.add_comm]
        rfl
      · exact ⟨[step.request base], by rw [run_of_over sampled limited short, one]; rfl⟩

/-- A run does all that its outcomes prescribe and nothing else: each request it sends takes one of
the answers, a status in place of a body fails its step, and only ids of transactions stand on the
complete lines of the output. -/
theorem run_prescribed (base : String) (plan : List Step) (replies : List Reply)
    (room : Option Nat) :
    let outcome := run base plan (Indexer.answering replies).connect ⟨"", room⟩
    let seen := outcome.visible
    seen = prescribed (plan.map (Step.request base)) (outcomes base plan replies) room ∧
      outcome.connection.indexer = .answering (replies.drop seen.requests.length) ∧
      (∀ step code, (sample base step (Indexer.answering [.status code]).connect).1 =
        .error (.status code step.category.name)) ∧
      ∀ line ∈ completeLines seen.output, line.length = 64 ∧ ∀ b ∈ line, IsHexCode b.toNat := by
  have whole : (run base plan (Indexer.answering replies).connect ⟨"", room⟩).visible =
      prescribed (plan.map (Step.request base)) (outcomes base plan replies) room := by
    rw [Indexer.connect, visible_run]
    rfl
  refine ⟨whole, ?_, fun _ _ => rfl, fun line mem => ?_⟩
  · obtain ⟨requests, left⟩ := connection_run base plan replies [] ⟨"", room⟩
    rw [Outcome.visible, Outcome.requests, Indexer.connect, left]
    rfl
  · have part :=
      prescribed_prefix (plan.map (Step.request base)) (outcomes base plan replies) room
    rw [← whole] at part
    have ids := completeLines_prefix (fun _ => isTxid_of_mem_idsBefore) part
    obtain ⟨id, known, rfl⟩ := List.mem_map.mp (ids.subset mem)
    have txid := isTxid_of_mem_idsBefore known
    exact ⟨length_utf8_of_isTxid txid, fun b => isHexCode_of_mem_utf8 txid⟩

end SimpleLedger.Corpus
