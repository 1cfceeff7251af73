import SimpleLedger.Proofs.Bytes.Percent
import SimpleLedger.Proofs.Endpoint.Location
import SimpleLedger.Proofs.Verdict.Hexadecimal

namespace SimpleLedger

theorem Verdict.ofHex_of_spelling {script : Bytes} {text : List Char}
    (h : Hex.Spelling script text) : ofHex (String.ofList text) = ofScript script := by
  apply ofHex_of_padded h
  rw [String.toList_ofList]
  exact Text.padded_self text

namespace Endpoint

def IsSegment (segment : List Char) : Prop :=
  segment ≠ [] ∧ '/' ∉ segment

/-- The body that is owed to a request for a path, by its method. -/
inductive Owes : String → List Char → Option Verdict → Prop
  /-- The text that a segment spells is taken for a script in hexadecimal. -/
  | script {segment : List Char} {text : String} : IsSegment segment →
    Percent.Spelling (Text.utf8 text.toList) segment →
    Owes "GET" ('/' :: segment) (some (.ofHex text))
  /-- A segment may spell bytes that are no text. -/
  | unreadable {segment : List Char} {bytes : Bytes} : IsSegment segment →
    Percent.Spelling bytes segment → (∀ text, Text.utf8 text ≠ bytes) →
    Owes "GET" ('/' :: segment) (some (.refused "BadRequest"
      "Unreadable script path: Invalid URL: Invalid UTF-8 in \x60script\x60"))
  /-- The root stands for the empty text. -/
  | root : Owes "GET" ['/'] (some (.ofHex ""))
  /-- No other path is one of a script. -/
  | elsewhere {path : List Char} : path ≠ ['/'] →
    (∀ segment, IsSegment segment → path ≠ '/' :: segment) →
    Owes "GET" path (some (.refused "BadRequest" "Expected GET /<hex-encoded-script>"))
  /-- Scripts are only asked for by one method. -/
  | otherMethod {method : String} {path : List Char} : method ∉ ["GET", "HEAD"] →
    Owes method path (some (.refused "BadRequest" "Expected GET /<hex-encoded-script>"))
  | head {path : List Char} : Owes "HEAD" path none

variable {method : String} {uri : String} {path segment : List Char} {body : Option Verdict}

theorem body_get (uri : String) :
    (respond "GET" uri).body = some (ofPath (Endpoint.path uri.toList)) :=
  rfl

theorem body_otherMethod (h : method ∉ ["GET", "HEAD"]) (connect : method ≠ "CONNECT")
    (uri : String) : (respond method uri).body = some unexpected := by
  simp only [List.mem_cons, List.not_mem_nil, or_false, not_or] at h
  obtain ⟨get, head⟩ := h
  have allowed : ¬ isBodiless method := by simp [isBodiless, head, connect]
  simp only [respond]
  rw [if_neg allowed, if_neg get]

theorem ofPath_segment (h : IsSegment segment) : ofPath ('/' :: segment) = ofSegment segment := by
  obtain ⟨filled, single⟩ := h
  obtain ⟨c, rest, rfl⟩ := List.exists_cons_of_ne_nil filled
  have undivided : ¬ (c :: rest).contains '/' := by rwa [List.contains_iff_mem]
  show (if (c :: rest).contains '/' then unexpected else ofSegment (c :: rest)) = _
  rw [if_neg undivided]

theorem ofPath_elsewhere (root : path ≠ ['/'])
    (other : ∀ segment, IsSegment segment → path ≠ '/' :: segment) : ofPath path = unexpected := by
  unfold ofPath
  split
  next => exact absurd rfl root
  next segment filled =>
    have divided : segment.contains '/' := by
      by_contra single
      have isSegment : IsSegment segment :=
        ⟨fun empty => root (empty ▸ rfl), fun mem => single (List.contains_iff_mem.mpr mem)⟩
      exact other segment isSegment rfl
    rw [if_pos divided]
  next => rfl

theorem Owes.body_eq (owed : Owes method path body) (h : HasPath uri.toList path)
    (connect : method ≠ "CONNECT") : (respond method uri).body = body := by
  cases owed with
  | @script segment text isSegment spelled =>
    rw [body_get, h.path_eq, ofPath_segment isSegment, ofSegment, spelled.decode_utf8,
      Text.fromUTF8?_utf8, String.ofList_toList]
  | @unreadable segment bytes isSegment spelled invalid =>
    rw [body_get, h.path_eq, ofPath_segment isSegment, ofSegment, spelled.decode_utf8,
      Text.fromUTF8?_eq_none invalid]
    rfl
  | root => rw [body_get, h.path_eq, ofPath]
  | elsewhere root other =>
    rw [body_get, h.path_eq, ofPath_elsewhere root other]
    rfl
  | otherMethod other => exact body_otherMethod other connect uri
  | head => rfl

/-- There is a right body for every method and every path. -/
theorem exists_owed (method : String) (path : List Char) : ∃ body, Owes method path body := by
  by_cases other : method ∉ ["GET", "HEAD"]
  · exact ⟨_, .otherMethod other⟩
  simp only [not_not, List.mem_cons, List.not_mem_nil, or_false] at other
  rcases other with rfl | rfl
  · by_cases root : path = ['/']
    · subst path
      exact ⟨_, .root⟩
    by_cases single : ∃ segment, IsSegment segment ∧ path = '/' :: segment
    · obtain ⟨segment, isSegment, rfl⟩ := single
      obtain ⟨bytes, spelled⟩ := Percent.exists_spelled segment
      by_cases valid : ∃ text, Text.utf8 text = bytes
      · obtain ⟨text, rfl⟩ := valid
        rw [← @String.toList_ofList text] at spelled
        exact ⟨_, .script isSegment spelled⟩
      · exact ⟨_, .unreadable isSegment spelled fun text same => valid ⟨text, same⟩⟩
    · exact ⟨_, .elsewhere root fun segment isSegment same => single ⟨segment, isSegment, same⟩⟩
  · exact ⟨_, .head⟩

/-- The digits of a script come through a URI as they are. -/
theorem respond_of_spelling {script : Bytes} {text : List Char} (h : Hex.Spelling script text) :
    (respond "GET" ("/" ++ String.ofList text)).body = some (Verdict.ofScript script) := by
  have plain (mark : Char) (listed : mark ∈ ['/', '?', '#', '%', '-']) : mark ∉ text :=
    fun mem => (h.isDigit mark mem).plain.2.2 listed
  have isPath : IsPath ('/' :: text) :=
    ⟨rfl, List.not_mem_cons_of_ne_of_not_mem (by decide) (plain '?' (by decide)),
      List.not_mem_cons_of_ne_of_not_mem (by decide) (plain '#' (by decide))⟩
  have located : HasPath ("/" ++ String.ofList text).toList ('/' :: text) := by
    have whole : HasPath ('/' :: text ++ []) ('/' :: text) := .origin isPath nofun
    rw [List.append_nil] at whole
    rw [String.toList_append, @String.toList_ofList text]
    exact whole
  rw [← Verdict.ofHex_of_spelling h]
  cases text with
  | nil => exact Owes.root.body_eq located (by decide)
  | cons c text =>
    have isSegment : IsSegment (c :: text) := ⟨List.cons_ne_nil c text, plain '/' (by decide)⟩
    apply Owes.body_eq (.script isSegment _) located (by decide)
    rw [String.toList_ofList]
    exact Percent.spelling_self (plain '%' (by decide))

/-- A request gets the one body that it is owed for its method and its path, and no other. Only a
request for a connection does not: it gets no body where it is owed a refusal. -/
theorem respond_body_iff (method uri : String) (path : List Char) (h : HasPath uri.toList path)
    (body : Option Verdict) :
    (method ≠ "CONNECT" → ((respond method uri).body = body ↔ Owes method path body)) ∧
      (method = "CONNECT" → (respond method uri).body = none ∧
        Owes method path (some (.refused "BadRequest" "Expected GET /<hex-encoded-script>"))) := by
  constructor
  · intro connect
    constructor
    · rintro rfl
      obtain ⟨body, owed⟩ := exists_owed method path
      rw [owed.body_eq h connect]
      exact owed
    · intro owed
      exact owed.body_eq h connect
  · rintro rfl
    exact ⟨rfl, .otherMethod (by decide)⟩

/-- The escapes in `/%36%2f%252b+?q` spell a slash and a percent sign, and each is read once. -/
theorem respond_body_iff_of_escapes :
    HasPath "/%36%2f%252b+?q".toList "/%36%2f%252b+".toList ∧
      (respond "GET" "/%36%2f%252b+?q").body = some (.ofHex "6/%2b+") := by
  have characters : "/%36%2f%252b+?q".toList = ['/', '%', '3', '6', '%', '2', 'f', '%', '2', '5',
      '2', 'b', '+', '?', 'q'] := by decide
  have path : "/%36%2f%252b+".toList = ['/', '%', '3', '6', '%', '2', 'f', '%', '2', '5', '2', 'b',
      '+'] := by decide
  have located : HasPath "/%36%2f%252b+?q".toList "/%36%2f%252b+".toList := by
    have isPath : IsPath "/%36%2f%252b+".toList := path ▸ ⟨rfl, by decide, by decide⟩
    have tail : IsTail ['?', 'q'] := by
      rintro c ⟨⟩
      exact Or.inl rfl
    have whole := HasPath.origin isPath tail
    rw [path] at whole
    rw [characters, path]
    exact whole
  have owed : Owes "GET" "/%36%2f%252b+".toList (some (.ofHex "6/%2b+")) := by
    have bytes : Text.utf8 "6/%2b+".toList = [0x36, 0x2f, 0x25, 0x32, 0x62, 0x2b] := by decide
    rw [path]
    apply Owes.script ⟨List.cons_ne_nil _ _, by decide⟩
    have plain : '%' ∉ ['2', 'b', '+'] := by decide
    have unescaped : Percent.Spelling [0x32, 0x62, 0x2b] ['2', 'b', '+'] :=
      Percent.spelling_self plain
    rw [bytes]
    exact .escape (.inl rfl) (.inl rfl)
      (.escape (.inl rfl) (.inl rfl) (.escape (.inl rfl) (.inl rfl) unescaped))
  exact ⟨located, ((respond_body_iff _ _ _ located _).1 (by decide)).mpr owed⟩

/-- Not every method but two is answered with a refusal: a request for a connection gets no body. -/
theorem connect_not_refused :
    ¬ ∀ method uri : String, method ≠ "GET" → method ≠ "HEAD" →
      (respond method uri).body =
        some (.refused "BadRequest" "Expected GET /<hex-encoded-script>") := by
  intro refused
  have body := refused "CONNECT" "/6a" (by decide) (by decide)
  cases body

end Endpoint

end SimpleLedger
