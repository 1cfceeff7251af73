import SimpleLedger.Endpoint
import SimpleLedger.Proofs.Text.Blank

namespace SimpleLedger.Endpoint

variable {scheme authority path rest uri : List Char}

/-- What may follow a path: nothing, a query or a fragment. -/
def IsTail (rest : List Char) : Prop :=
  ∀ c ∈ rest.head?, c = '?' ∨ c = '#'

/-- A path that begins at the root, and neither a query nor a fragment after it. -/
def IsPath (path : List Char) : Prop :=
  path.head? = some '/' ∧ '?' ∉ path ∧ '#' ∉ path

def IsScheme (scheme : List Char) : Prop :=
  ':' ∉ scheme ∧ '/' ∉ scheme

def IsAuthority (authority : List Char) : Prop :=
  '/' ∉ authority ∧ '?' ∉ authority ∧ '#' ∉ authority

/-- The path of a URI: what it begins with, what stands after a scheme and an authority, or the root
if nothing does. An authority alone and an asterisk have none. -/
inductive HasPath : List Char → List Char → Prop
  | origin {path rest : List Char} : IsPath path → IsTail rest → HasPath (path ++ rest) path
  | absolute {scheme authority path rest : List Char} :
    IsScheme scheme → IsAuthority authority → IsPath path → IsTail rest →
    HasPath (scheme ++ ':' :: '/' :: '/' :: (authority ++ path ++ rest)) path
  | host {scheme authority rest : List Char} :
    IsScheme scheme → IsAuthority authority → IsTail rest →
    HasPath (scheme ++ ':' :: '/' :: '/' :: (authority ++ rest)) ['/']
  | none {uri : List Char} : '/' ∉ uri → HasPath uri []

theorem IsAuthority.ne_slash (h : IsAuthority authority) : ∀ c ∈ authority, (c != '/') = true :=
  fun _ mem => bne_iff_ne.mpr fun eq => h.1 (eq ▸ mem)

theorem beforeQuery_append {run : List Char} (query : '?' ∉ run) (fragment : '#' ∉ run)
    (tail : IsTail rest) : beforeQuery (run ++ rest) = run := by
  apply Text.takeWhile_append_stop
  · intro c mem
    simp only [Bool.and_eq_true, bne_iff_ne]
    exact ⟨fun eq => query (eq ▸ mem), fun eq => fragment (eq ▸ mem)⟩
  · intro c first
    rcases tail c first with rfl | rfl <;> rfl

theorem afterScheme?_append (colon : ':' ∉ scheme) (rest : List Char) :
    afterScheme? (scheme ++ ':' :: '/' :: '/' :: rest) = some rest := by
  induction scheme with
  | nil => rfl
  | cons c scheme ih =>
    have apart := List.ne_and_not_mem_of_not_mem_cons colon
    rw [List.cons_append, afterScheme?]
    · exact ih apart.2
    · intro _ eq _
      exact absurd eq.symm apart.1

theorem afterScheme?_of_not_mem (h : '/' ∉ uri) : afterScheme? uri = none := by
  fun_induction afterScheme? uri with
  | case1 => rfl
  | case2 => simp at h
  | case3 c rest _ ih => exact ih fun mem => h (List.mem_cons_of_mem c mem)

theorem path_of_relative {uri : List Char} (h : uri.head? ≠ some '/') :
    Endpoint.path uri =
      match afterScheme? uri with
      | none => []
      | some rest =>
        match (beforeQuery rest).dropWhile fun c => c != '/' with
        | [] => ['/']
        | path => path := by
  unfold Endpoint.path
  split
  next => exact absurd rfl h
  next => rfl

/-- After a scheme the path is looked for behind the authority. -/
theorem path_of_scheme (h : IsScheme scheme) (rest : List Char) :
    Endpoint.path (scheme ++ ':' :: '/' :: '/' :: rest) =
      match (beforeQuery rest).dropWhile fun c => c != '/' with
      | [] => ['/']
      | path => path := by
  have relative : (scheme ++ ':' :: '/' :: '/' :: rest).head? ≠ some '/' := by
    intro first
    cases scheme with
    | nil => cases first
    | cons c scheme =>
      obtain rfl : c = '/' := Option.some.inj first
      exact absurd List.mem_cons_self h.2
  rw [path_of_relative relative, afterScheme?_append h.1]

theorem HasPath.path_eq (h : HasPath uri path) : Endpoint.path uri = path := by
  cases h with
  | @origin path rest isPath tail =>
    obtain ⟨first, query, fragment⟩ := isPath
    obtain ⟨segment, rfl⟩ := List.head?_eq_some_iff.mp first
    exact beforeQuery_append query fragment tail
  | @absolute scheme authority path rest isScheme isAuthority isPath tail =>
    obtain ⟨first, query, fragment⟩ := isPath
    obtain ⟨segment, rfl⟩ := List.head?_eq_some_iff.mp first
    have stop : ∀ c ∈ ('/' :: segment).head?, (c != '/') = false := by
      rintro c ⟨⟩
      rfl
    have found : beforeQuery (authority ++ '/' :: segment ++ rest) = authority ++ '/' :: segment := by
      apply beforeQuery_append _ _ tail
      · exact List.not_mem_append isAuthority.2.1 query
      · exact List.not_mem_append isAuthority.2.2 fragment
    rw [path_of_scheme isScheme, found, Text.dropWhile_append_stop isAuthority.ne_slash stop]
  | @host scheme authority rest isScheme isAuthority tail =>
    rw [path_of_scheme isScheme, beforeQuery_append isAuthority.2.1 isAuthority.2.2 tail,
      List.dropWhile_eq_nil_iff.mpr isAuthority.ne_slash]
  | none relative =>
    have first : uri.head? ≠ some '/' := fun first => relative (List.mem_of_mem_head? first)
    rw [path_of_relative first, afterScheme?_of_not_mem relative]

end SimpleLedger.Endpoint
