import SimpleLedger.Corpus.Sampling
import SimpleLedger.Proofs.Bytes.Base64
import SimpleLedger.Proofs.Json.Accepted
import SimpleLedger.Proofs.Json.Sorted
import SimpleLedger.Proofs.Text.Utf8

namespace SimpleLedger.Corpus

namespace Query

/-- The text that a URL carries behind its base. -/
def carried? (base url : String) : Option String :=
  if base.toList <+: url.toList then do
    let bytes ← Base64.decode? (url.toList.drop base.toList.length)
    String.fromUTF8? ⟨bytes.toArray⟩
  else none

/-- The document of a query, written out in the order of its members. -/
theorem document_eq (query : Query) :
    query.document = .obj [
      ("q", .obj [("db", .arr [.str "c"]), ("find", query.find.sorted),
        ("limit", .nat query.limit), ("project", .obj [("tx.h", .nat 1)])]),
      ("r", .obj [("f", .str projection)]), ("v", .nat 3)] :=
  rfl

variable {query other : Query}

theorem exact_document (exact : Json.Exact query.find) (word : query.limit < 0x10000000000000000) :
    Json.Exact query.document := by
  have members : ∀ member ∈ [("v", Json.nat 3),
      ("q", .obj [("db", .arr [.str "c"]), ("find", query.find),
        ("project", .obj [("tx.h", .nat 1)]), ("limit", .nat query.limit)]),
      ("r", .obj [("f", .str projection)])], Json.Exact member.2 := by
    simp only [List.forall_mem_cons]
    refine ⟨.nat (by decide), .obj ?_, .obj (List.forall_mem_singleton.mpr (.str _)),
      List.forall_mem_nil _⟩
    simp only [List.forall_mem_cons]
    exact ⟨.arr (List.forall_mem_singleton.mpr (.str _)), exact,
      .obj (List.forall_mem_singleton.mpr (.nat (by decide))), .nat word, List.forall_mem_nil _⟩
  exact (Json.Exact.obj members).sorted

theorem carried?_url (query : Query) (base : String) :
    carried? base (query.url base) = some (String.ofList query.document.compact) := by
  have whole : (query.url base).toList =
      base.toList ++ Base64.letters (Text.utf8 query.document.compact) := by
    rw [url, encoded, Base64.encode, String.toList_append, @String.toList_ofList (Base64.letters _)]
  rw [carried?, whole, if_pos (List.prefix_append _ _), List.drop_left, Base64.decode?_letters]
  exact Text.fromUTF8?_utf8 _

/-- Queries with the same URL ask for the same, and for as much of it. -/
theorem eq_of_url_eq {base : String} (exact : Json.Exact query.find)
    (word : query.limit < 0x10000000000000000) (exact' : Json.Exact other.find)
    (word' : other.limit < 0x10000000000000000) (same : other.url base = query.url base) :
    other.limit = query.limit ∧ other.find.sorted = query.find.sorted := by
  have texts := carried?_url other base
  rw [same, carried?_url query base] at texts
  have documents : query.document = other.document := by
    have read := (exact_document exact word).ofText?_compactText
    rw [Json.compactText, Option.some.inj texts] at read
    exact Option.some.inj (read.symm.trans (exact_document exact' word').ofText?_compactText)
  rw [document_eq, document_eq] at documents
  simp only [Json.obj.injEq, List.cons.injEq, Prod.mk.injEq, Json.nat, Json.int.injEq,
    Int.ofNat_inj, true_and, and_true] at documents
  exact ⟨documents.2.symm, documents.1.symm⟩

/-- A URL gives back the document of its query, with what to find and the limit in it; so queries
with the same URL are the same, but for the order of members. -/
theorem url_carries_query (query : Query) (base : String) (exact : Json.Exact query.find)
    (word : query.limit < 0x10000000000000000) :
    (∃ text, carried? base (query.url base) = some text ∧
      (∀ written, Json.Spelling (.element written) text.toList ↔ written = query.document.written) ∧
      Json.ofWritten? query.document.written = some query.document) ∧
      (∃ q, query.document.member? "q" = some q ∧ q.member? "find" = some query.find.sorted ∧
        q.member? "limit" = some (.nat query.limit)) ∧
      query.find.sorted.Ordered ∧ (query.find.Ordered → query.find.sorted = query.find) ∧
      ∀ other : Query, Json.Exact other.find → other.limit < 0x10000000000000000 →
        other.url base = query.url base → other.limit = query.limit ∧
          other.find.sorted = query.find.sorted ∧
          (other.find.Ordered → query.find.Ordered → other.find = query.find) := by
  have numbers := exact_document exact word
  have asked : query.document.member? "q" = _ := congrArg (Json.member? "q") query.document_eq
  refine ⟨⟨_, carried?_url query base, numbers.spelling_compactText_iff,
    numbers.ofWritten?_written⟩, ⟨_, asked, rfl, rfl⟩, exact.ordered_sorted,
    Json.Ordered.sorted_eq, ?_⟩
  intro other exact' word' same
  obtain ⟨limit, find⟩ := eq_of_url_eq exact word exact' word' same
  refine ⟨limit, find, fun ordered' ordered => ?_⟩
  rw [← ordered.sorted_eq, ← ordered'.sorted_eq, find]

/-- A query with the lowest and the highest number, and with every kind of character in a text. -/
def edgeQuery : Query :=
  { find := .obj [("a", .str "\"\\/\n\x01é"),
      ("b", .arr [.int (-0x8000000000000000), .int 0xffffffffffffffff])]
    limit := 0xffffffffffffffff }

theorem url_carries_query_of_edges :
    ∃ text, carried? "/q/" (edgeQuery.url "/q/") = some text ∧
      Json.Spelling (.element edgeQuery.document.written) text.toList := by
  have exact : Json.Exact edgeQuery.find := by
    refine .obj ?_
    simp only [List.forall_mem_cons]
    refine ⟨.str _, .arr ?_, List.forall_mem_nil _⟩
    simp only [List.forall_mem_cons]
    exact ⟨.int (by decide) (by decide), .int (by decide) (by decide), List.forall_mem_nil _⟩
  obtain ⟨⟨text, carried, spells, _⟩, _⟩ := url_carries_query edgeQuery "/q/" exact (by decide)
  exact ⟨text, carried, (spells _).mpr rfl⟩

end Query

theorem Category.exact_find (category : Category) : Json.Exact category.find := by
  have valid (transactionType : TransactionType) : Json.Exact (findValid transactionType) := by
    refine .obj ?_
    simp only [List.forall_mem_cons]
    exact ⟨.str _, .bool _, List.forall_mem_nil _⟩
  cases category with
  | invalid => exact .obj (List.forall_mem_singleton.mpr (.bool _))
  | genesis => exact valid _
  | mint => exact valid _
  | send => exact valid _
  | all => exact .obj (List.forall_mem_nil _)

theorem Category.ordered_find (category : Category) : category.find.Ordered := by
  have names : "slp.detail.transactionType" < "slp.valid" := by decide
  have valid (transactionType : TransactionType) : (findValid transactionType).Ordered := by
    refine .obj (List.pairwise_pair.mpr names) ?_
    simp only [List.forall_mem_cons]
    exact ⟨.str _, .bool _, List.forall_mem_nil _⟩
  cases category with
  | invalid =>
    exact .obj (List.pairwise_singleton _ _) (List.forall_mem_singleton.mpr (.bool _))
  | genesis => exact valid _
  | mint => exact valid _
  | send => exact valid _
  | all => exact .obj .nil (List.forall_mem_nil _)

/-- A step is told by the URL of its request. -/
theorem Step.eq_of_url_eq {base : String} {step other : Step}
    (word : step.limit < 0x10000000000000000) (word' : other.limit < 0x10000000000000000)
    (same : (other.request base).url = (step.request base).url) : other = step := by
  obtain ⟨limit, find⟩ := Query.eq_of_url_eq step.category.exact_find word
    other.category.exact_find word' same
  have category : other.category = step.category := by
    apply Category.find_inj.mp
    rw [← other.category.ordered_find.sorted_eq, ← step.category.ordered_find.sorted_eq]
    exact find
  obtain ⟨_, _⟩ := other
  exact congrArg₂ Step.mk category limit

end SimpleLedger.Corpus
