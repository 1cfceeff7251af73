import SimpleLedger.Command
import SimpleLedger.Proofs.Command.Flags
import SimpleLedger.Proofs.Corpus.Query
import SimpleLedger.Proofs.Corpus.Sampling
import SimpleLedger.Proofs.Settings

namespace SimpleLedger

namespace Corpus

/-- What comes of the steps of a plan when an indexer is asked for them. -/
def Indexer.outcomes (base : String) (plan : List Step) :
    Indexer → List (Except SamplerError (List String))
  | .answering replies => Corpus.outcomes base plan replies
  | .unreachable => plan.map fun _ => .error .request

/-- A URL behind the base holds what a step looks for, and the limit of the step. -/
def Step.Carried (step : Step) (base url : String) : Prop :=
  ∃ document q : Json, Query.carried? base url = some document.compactText ∧
    document.member? "q" = some q ∧ q.member? "find" = some step.category.find.sorted ∧
    q.member? "limit" = some (.nat step.limit)

theorem Step.carried_request (step : Step) (base : String) :
    step.Carried base (step.request base).url := by
  let query := Query.ofCategory step.category step.limit
  exact ⟨query.document, _, query.carried?_url base,
    congrArg (Json.member? "q") query.document_eq, rfl, rfl⟩

theorem visible_run_indexer (base : String) (plan : List Step) (indexer : Indexer) :
    (run base plan indexer.connect ⟨"", none⟩).visible =
      prescribed (plan.map (Step.request base)) (indexer.outcomes base plan) none := by
  cases indexer with
  | answering replies =>
    rw [Indexer.connect, visible_run]
    rfl
  | unreachable =>
    cases plan with
    | nil => rfl
    | cons step plan => exact (prescribed_error _).symm

end Corpus

namespace Command

/-- The steps of a sampling in their order, or the one step of the category that is named. -/
def stepsOf (only : Option Corpus.Category) (narrow broad : Nat) : List Corpus.Step :=
  [⟨.invalid, narrow⟩, ⟨.genesis, narrow⟩, ⟨.mint, narrow⟩, ⟨.send, narrow⟩, ⟨.all, broad⟩].filter
    fun step => only.all (step.category = ·)

/-- Nothing but a failure is reported: no request, no output, and no file was made. -/
def Report.Refused (report : Report) (failure : Failure) : Prop :=
  report = ⟨1, "", some failure.message, none, []⟩

/-- A run of a sampling is reported: its requests, its text on the output or in the file that was
asked for, and its success by the code. -/
structure Report.Tells (report : Report) (name : Option String) (outcome : Corpus.Outcome) :
    Prop where
  requests : report.requests = outcome.requests
  output : report.output = if name.isNone then outcome.sink.written else ""
  file : report.file = name.map fun name => (name, outcome.sink.written)
  code : report.code = if outcome.result.isOk then 0 else 1

theorem samplePlan_of_error {around : Surroundings} {error : Settings.Error}
    (h : Settings.load around.file around.environment = .error error) (request : SampleRequest) :
    samplePlan around request = .error (.configuration "Failed to load configuration") := by
  rw [samplePlan, settings, h]
  rfl

theorem samplePlan_of_settings {around : Surroundings} {said : Settings}
    (h : Settings.load around.file around.environment = .ok said) (request : SampleRequest) :
    samplePlan around request =
      let narrow := request.narrowLimit.getD said.narrowLimit
      let broad := request.broadLimit.getD said.broadLimit
      if narrow = 0 ∨ broad = 0 then .error (.invalidData "sample limits must be at least 1")
      else .ok (request.baseUrl.getD said.baseUrl, stepsOf request.only narrow broad) := by
  rw [samplePlan, settings, h]
  rcases request with ⟨_, _, _, _, only⟩
  cases only with
  | none => rfl
  | some category => cases category <;> rfl

theorem tells_sampleReport (name : Option String) (outcome : Corpus.Outcome) :
    (sampleReport name outcome).Tells name outcome := by
  obtain ⟨result, sink, connection⟩ := outcome
  cases result <;> cases name <;> exact ⟨rfl, rfl, rfl, rfl⟩

/-- A command asks to sample by its options alone. Unless the settings load and no limit is zero then,
it does nothing but fail. Otherwise each setting is the option, or else what was loaded: the steps are
taken in order up to the first that fails, what they give goes to the output or the file, and the
code tells whether all of them succeeded. -/
theorem sample_checked (around : Surroundings) (arguments : List String) (request : SampleRequest) :
    (Task.ofArguments? ("sample" :: arguments) = some (.sample request) ↔
      Asks arguments request) ∧
    (Asks arguments request → ∃ report, run around ("sample" :: arguments) = .finished report ∧
      (∀ error, Settings.load around.file around.environment = .error error →
        report.Refused (.configuration "Failed to load configuration")) ∧
      ∀ settings, Settings.load around.file around.environment = .ok settings →
        (settings.narrowLimit ≠ 0 ∧ settings.broadLimit ≠ 0) ∧
        let base := request.baseUrl.getD settings.baseUrl
        let narrow := request.narrowLimit.getD settings.narrowLimit
        let broad := request.broadLimit.getD settings.broadLimit
        let steps := stepsOf request.only narrow broad
        (narrow = 0 ∨ broad = 0 →
          report.Refused (.invalidData "sample limits must be at least 1")) ∧
        (narrow ≠ 0 ∧ broad ≠ 0 → ∀ detail, request.output.bind around.refusal = some detail →
          report.Refused (.io detail)) ∧
        (narrow ≠ 0 ∧ broad ≠ 0 → request.output.bind around.refusal = none →
          let outcome := Corpus.run base steps (around.indexer base).connect ⟨"", none⟩
          report.Tells request.output outcome ∧
            outcome.visible = Corpus.prescribed (steps.map (Corpus.Step.request base))
              ((around.indexer base).outcomes base steps) none ∧
            ∀ step ∈ steps, step.Carried base (step.request base).url)) := by
  refine ⟨ofArguments?_sample_iff, fun asks => ⟨sample around request, ?_, ?_, ?_⟩⟩
  · rw [run, ofArguments?_sample_iff.mpr asks]
  · intro error failed
    rw [sample, samplePlan_of_error failed]
    rfl
  · intro settings loaded
    have plan := samplePlan_of_settings loaded request
    refine ⟨Settings.limits_of_load loaded, ?_, ?_, ?_⟩
    · intro zero
      rw [sample, plan, if_pos zero]
      rfl
    · intro nonzero detail refused
      rw [sample, plan, if_neg (not_or.mpr nonzero)]
      dsimp only
      rw [refused]
      rfl
    · intro nonzero made
      refine ⟨?_, Corpus.visible_run_indexer _ _ _, fun step _ => step.carried_request _⟩
      rw [sample, plan, if_neg (not_or.mpr nonzero)]
      dsimp only
      rw [made]
      exact tells_sampleReport _ _

/-- The body of an answer with one id. -/
def nearbyBody : String :=
  "\x7b\"c\":[\x7b\"txid\":\"" ++ String.ofList (.replicate 64 'd') ++ "\"\x7d]\x7d"

/-- An indexer that the environment leads to. -/
def nearby : Surroundings where
  environment := [("SLP_Oracle_Indexer__Base_URL", "http://n/")]
  file := none
  indexer base := if base = "http://n/" then .answering [.body nearbyBody] else .unreachable
  refusal name := if name = "/" then some "it is a directory" else none

open Settings Settings.Environment in
theorem untangled_nearby : Untangled nearby.file (.table []) nearby.environment where
  holds := rfl
  lowerKeyed := .table (List.forall_mem_nil _) (List.forall_mem_nil _)
  sections := by
    intro setting value found
    cases setting <;> cases found
  ends := by
    intro setting keys filled
    rw [Value.under?_append]
    cases setting <;> rfl
  plain := by decide
  different := by decide
  aside := by
    refine List.forall_mem_singleton.mpr fun keys named setting near => ?_
    have own : Names "SLP_Oracle_Indexer__Base_URL" Setting.baseUrl.path :=
      Setting.baseUrl.names_path_iff.mpr (by decide)
    obtain rfl := named.unique own (by decide)
    cases setting <;> first | rfl | exact absurd near (by decide)

theorem load_nearby : Settings.load nearby.file nearby.environment =
    .ok ⟨"0.0.0.0:8078", "http://n/", 60, 1, 10000⟩ := by
  refine untangled_nearby.load_eq_ok_iff.mpr ⟨fun setting => ?_, by decide, by decide⟩
  cases setting <;> rfl

theorem run_nearby :
    Corpus.run "http://n/" [⟨.genesis, 2⟩] (nearby.indexer "http://n/").connect ⟨"", none⟩ =
      ⟨.ok 1, ⟨String.ofList (.replicate 64 'd') ++ "\n", none⟩, ⟨.answering [],
        [⟨.genesis, (Corpus.Query.ofCategory .genesis 2).url "http://n/"⟩]⟩⟩ := by
  have read : Corpus.Body.ofText? nearbyBody = some [String.ofList (.replicate 64 'd')] := by cbv
  have ids : Corpus.idsOfBody 2 nearbyBody = .ok [String.ofList (.replicate 64 'd')] := by
    rw [Corpus.idsOfBody, read]
    decide
  have sampled : Corpus.sample "http://n/" ⟨.genesis, 2⟩ (nearby.indexer "http://n/").connect =
      (Corpus.idsOfBody 2 nearbyBody,
        ⟨.answering [], [Corpus.Step.request "http://n/" ⟨.genesis, 2⟩]⟩) := rfl
  rw [Corpus.run, sampled, ids]
  rfl

set_option maxRecDepth 2000 in
theorem sample_checked_of_nearby :
    (∃ report, run nearby ["sample", "--only=GeNeSis", "-oids", "--narrow-limit", "2"] =
        .finished report ∧ report.code = 0 ∧
      report.file = some ("ids", String.ofList (.replicate 64 'd') ++ "\n") ∧
      report.requests = [⟨.genesis, (Corpus.Query.ofCategory .genesis 2).url "http://n/"⟩]) ∧
    (∃ report, run nearby ["sample", "-o", "/"] = .finished report ∧
      report.Refused (.io "it is a directory")) ∧
    ∃ report, run nearby ["sample", "--broad-limit=0", "-oids"] = .finished report ∧
      report.Refused (.invalidData "sample limits must be at least 1") := by
  have one := sample_checked nearby ["--only=GeNeSis", "-oids", "--narrow-limit", "2"]
    ⟨none, some "ids", some 2, none, some .genesis⟩
  have two := sample_checked nearby ["-o", "/"] ⟨none, some "/", none, none, none⟩
  have three := sample_checked nearby ["--broad-limit=0", "-oids"]
    ⟨none, some "ids", none, some 0, none⟩
  obtain ⟨report, same, -, checked⟩ := one.2 (one.1.mp (by decide))
  obtain ⟨report', same', -, checked'⟩ := two.2 (two.1.mp (by decide))
  obtain ⟨report'', same'', -, checked''⟩ := three.2 (three.1.mp (by decide))
  have tells : report.Tells (some "ids") (Corpus.run "http://n/" [⟨.genesis, 2⟩]
      (nearby.indexer "http://n/").connect ⟨"", none⟩) :=
    ((checked _ load_nearby).2.2.2 (by decide) (by decide)).1
  rw [run_nearby] at tells
  exact ⟨⟨report, same, tells.code, tells.file, tells.requests⟩,
    ⟨report', same', (checked' _ load_nearby).2.2.1 (by decide) _ (by decide)⟩,
    ⟨report'', same'', (checked'' _ load_nearby).2.1 (by decide)⟩⟩

end Command

end SimpleLedger
