import Mathlib.Data.List.Infix
import Btrace.Ctf.Resolve.Context

set_option autoImplicit false

/- The grammar of `pathstr_to_ptokens`: the loop over the string is
`List.splitOn '.'` of it, refused when a piece is empty, that is when the string
is empty, starts or ends with `.`, or holds two `.` in a row
(`pathstrToPtokens_spec`). The tokens are then the maximal `.`-free pieces of
the string, and joining them with `.` gives it back. -/
namespace Btrace.Ctf

open List

/-- The path strings `pathstr_to_ptokens` refuses: empty, starting or ending
with `.`, or holding two consecutive `.`. -/
def HasEmptyToken (l : List Char) : Prop :=
  l = [] ∨ l.head? = some '.' ∨ l.getLast? = some '.' ∨ ['.', '.'] <:+: l

instance (l : List Char) : Decidable (HasEmptyToken l) :=
  inferInstanceAs (Decidable (l = [] ∨ l.head? = some '.' ∨ l.getLast? = some '.' ∨ ['.', '.'] <:+: l))

section SplitOnDot

theorem splitOn_dot_cons (c : Char) (l : List Char) :
    (c :: l).splitOn '.' = if c = '.' then [] :: l.splitOn '.' else (l.splitOn '.').modifyHead (c :: ·) := by
  simp [splitOn, splitOnP_cons]

/-- A piece of the split holds no `.`. -/
theorem dot_not_mem_of_mem_splitOn : ∀ {l piece : List Char}, piece ∈ l.splitOn '.' → '.' ∉ piece
  | [], piece, found => by simp_all [splitOn]
  | c :: l, piece, found => by
      rw [splitOn_dot_cons] at found
      split_ifs at found with dot
      · rcases mem_cons.1 found with rfl | found
        · simp
        · exact dot_not_mem_of_mem_splitOn found
      · obtain ⟨first, rest, split⟩ := exists_cons_of_ne_nil (splitOnP_ne_nil (· == '.') l)
        have pieces : l.splitOn '.' = first :: rest := split
        rw [pieces, modifyHead_cons] at found
        rcases mem_cons.1 found with rfl | found
        · exact not_mem_cons_of_ne_of_not_mem (Ne.symm dot)
            (dot_not_mem_of_mem_splitOn (l := l) (by simp [pieces]))
        · exact dot_not_mem_of_mem_splitOn (l := l) (by simp [pieces, found])

theorem splitOn_dot_eq_single {l : List Char} (noDot : '.' ∉ l) : l.splitOn '.' = [l] :=
  splitOnP_eq_single _ l fun c mem same => noDot (by simpa [eq_of_beq same] using mem)

theorem splitOn_dot_append {token : List Char} (noDot : '.' ∉ token) (rest : List Char) :
    (token ++ '.' :: rest).splitOn '.' = token :: rest.splitOn '.' :=
  splitOnP_first _ token (fun c mem same => noDot (by simpa [eq_of_beq same] using mem)) '.' (by simp) rest

/-- The first piece is empty exactly when the string is empty or starts with `.`. -/
theorem head_splitOn_dot_eq_nil (l : List Char) :
    (l.splitOn '.').head? = some [] ↔ l = [] ∨ l.head? = some '.' := by
  cases l with
  | nil => simp [splitOn]
  | cons c l =>
      rw [splitOn_dot_cons]
      split_ifs with dot
      · simp [dot]
      · obtain ⟨first, rest, split⟩ := exists_cons_of_ne_nil (splitOnP_ne_nil (· == '.') l)
        have pieces : l.splitOn '.' = first :: rest := split
        simp [pieces, dot]

/-- A later piece is empty exactly when the string ends with `.` or holds two
`.` in a row. -/
theorem nil_mem_tail_splitOn_dot (l : List Char) :
    [] ∈ (l.splitOn '.').tail ↔ l.getLast? = some '.' ∨ ['.', '.'] <:+: l := by
  induction l with
  | nil => simp [splitOn]
  | cons c l ih =>
      obtain ⟨first, rest, split⟩ := exists_cons_of_ne_nil (splitOnP_ne_nil (· == '.') l)
      have pieces : l.splitOn '.' = first :: rest := split
      have whole : [] ∈ l.splitOn '.' ↔ (l.splitOn '.').head? = some [] ∨ [] ∈ (l.splitOn '.').tail := by
        simp [pieces, eq_comm]
      rw [splitOn_dot_cons, infix_cons_iff]
      split_ifs with dot
      · subst dot
        rw [tail_cons, whole, head_splitOn_dot_eq_nil, ih]
        cases l with
        | nil => simp
        | cons d l =>
            by_cases next : d = '.'
            · simp [next, getLast?_cons_cons]
            · simp [next, Ne.symm next, getLast?_cons_cons]
      · rw [pieces, tail_cons] at ih
        rw [pieces, modifyHead_cons, tail_cons, ih]
        cases l with
        | nil => simp [dot]
        | cons d l => simp [dot, Ne.symm dot, getLast?_cons_cons]

theorem nil_mem_splitOn_dot (l : List Char) : [] ∈ l.splitOn '.' ↔ HasEmptyToken l := by
  obtain ⟨first, rest, split⟩ := exists_cons_of_ne_nil (splitOnP_ne_nil (· == '.') l)
  have pieces : l.splitOn '.' = first :: rest := split
  have whole : [] ∈ l.splitOn '.' ↔ (l.splitOn '.').head? = some [] ∨ [] ∈ (l.splitOn '.').tail := by
    simp [pieces, eq_comm]
  rw [whole, head_splitOn_dot_eq_nil, nil_mem_tail_splitOn_dot, HasEmptyToken]
  simp only [or_assoc]

end SplitOnDot

/-- The loop with `token` read so far: it returns the pieces of the rest of the
string, the first one continuing `token`, unless one of them is empty. -/
theorem pathstrToPtokensLoop_eq (cs : List Char) :
    ∀ (token : List Char), '.' ∉ token →
      pathstrToPtokensLoop cs token =
        if [] ∈ (token ++ cs).splitOn '.' then none else some (((token ++ cs).splitOn '.').map String.mk)
  | token, noDot => by
      induction cs generalizing token with
      | nil =>
          rw [pathstrToPtokensLoop, append_nil, splitOn_dot_eq_single noDot]
          by_cases empty : token = [] <;> simp [empty]
      | cons c cs ih =>
          by_cases dot : c = '.'
          · subst dot
            rw [pathstrToPtokensLoop, if_pos rfl, ih [] (not_mem_nil _), splitOn_dot_append noDot, nil_append]
            by_cases empty : token = [] <;> by_cases hole : [] ∈ cs.splitOn '.' <;>
              simp [empty, hole, eq_comm (a := ([] : List Char))]
          · rw [pathstrToPtokensLoop, if_neg dot, ih (token ++ [c]) (by simp [noDot, Ne.symm dot]), append_assoc,
              singleton_append]

theorem pathstrToPtokens_eq (s : String) :
    pathstrToPtokens s =
      if HasEmptyToken s.toList then none else some ((s.toList.splitOn '.').map String.mk) := by
  rw [pathstrToPtokens, pathstrToPtokensLoop_eq _ [] (not_mem_nil _), nil_append]
  simp only [nil_mem_splitOn_dot]

theorem toList_intercalate (sep : String) (ts : List String) :
    (String.intercalate sep ts).toList = sep.toList.intercalate (ts.map String.toList) := by
  have go : ∀ (acc : String) (ts : List String),
      (String.intercalate.go acc sep ts).toList = acc.toList ++ sep.toList.intercalate ([] :: ts.map String.toList) := by
    intro acc ts
    induction ts generalizing acc with
    | nil => simp [String.intercalate.go, intercalate]
    | cons t ts ih =>
        rw [String.intercalate.go, ih]
        cases ts <;> simp [intercalate, intersperse_cons₂, String.toList, append_assoc]
  cases ts with
  | nil => rfl
  | cons t ts =>
      rw [String.intercalate, go]
      cases ts <;> simp [intercalate, intersperse_cons₂, String.toList]

/-- `pathstr_to_ptokens` on every string: it fails exactly when the string is
empty, starts or ends with `.`, or holds two `.` in a row; otherwise it returns
the pieces between the `.`, all non-empty and `.`-free, which joined with `.`
give the string back; and it reads back every join of such tokens. -/
theorem pathstrToPtokens_spec (s : String) :
    (pathstrToPtokens s = none ↔ HasEmptyToken s.toList) ∧
      (¬ HasEmptyToken s.toList →
        pathstrToPtokens s = some ((s.toList.splitOn '.').map String.mk) ∧
          (∀ t ∈ (s.toList.splitOn '.').map String.mk, t ≠ "" ∧ '.' ∉ t.toList) ∧
          String.intercalate "." ((s.toList.splitOn '.').map String.mk) = s) ∧
      ∀ ts : List String, ts ≠ [] → (∀ t ∈ ts, t ≠ "" ∧ '.' ∉ t.toList) →
        pathstrToPtokens (String.intercalate "." ts) = some ts := by
  refine ⟨by rw [pathstrToPtokens_eq]; split_ifs <;> simp_all, fun good => ⟨?_, ?_, ?_⟩, fun ts nonEmpty tokens => ?_⟩
  · rw [pathstrToPtokens_eq, if_neg good]
  · intro t found
    obtain ⟨piece, mem, rfl⟩ := mem_map.1 found
    refine ⟨fun empty => good ((nil_mem_splitOn_dot _).1 ?_), dot_not_mem_of_mem_splitOn mem⟩
    rwa [show piece = [] from congrArg String.data empty] at mem
  · apply String.ext
    rw [← String.toList, toList_intercalate, map_map, show String.toList ∘ String.mk = id from rfl, map_id]
    exact intercalate_splitOn _ _
  · have pieces : (String.intercalate "." ts).toList.splitOn '.' = ts.map String.toList := by
      rw [toList_intercalate]
      exact splitOn_intercalate _ '.' (by simpa using fun t mem => (tokens t mem).2) (by simpa using nonEmpty)
    have good : ¬ HasEmptyToken (String.intercalate "." ts).toList := by
      rw [← nil_mem_splitOn_dot, pieces]
      simp only [mem_map, not_exists, not_and]
      intro t mem empty
      exact (tokens t mem).1 (String.ext empty)
    rw [pathstrToPtokens_eq, if_neg good, pieces, map_map, show String.mk ∘ String.toList = id from rfl, map_id]

theorem pathstrToPtokens_two_tokens :
    pathstrToPtokens "a.b" = some (("a.b".toList.splitOn '.').map String.mk) ∧
      pathstrToPtokens (String.intercalate "." ["a", "b"]) = some ["a", "b"] :=
  ⟨((pathstrToPtokens_spec "a.b").2.1 (by decide)).1, (pathstrToPtokens_spec "").2.2 _ (by decide) (by decide)⟩

/-! ## The absolute prefixes -/

/-- No absolute prefix starts another, so a path string starts with at most one. -/
theorem absolutePathPrefixes_prefix_eq {s1 s2 : CtfScope} {l : List Char}
    (first : (absolutePathPrefixes s1).toList <+: l) (second : (absolutePathPrefixes s2).toList <+: l) : s1 = s2 := by
  rcases prefix_or_prefix_of_prefix first second with within | within <;>
    cases s1 <;> cases s2 <;> first | rfl | exact absurd within (by decide)

/-- `get_root_scope_from_absolute_pathstr` finds the scope whose prefix starts
the path string: the order of the prefix table does not matter. -/
theorem getRootScopeFromAbsolutePathstr_eq_some_iff (pathstr : String) (scope : CtfScope) :
    getRootScopeFromAbsolutePathstr pathstr = some scope ↔ (absolutePathPrefixes scope).toList <+: pathstr.toList := by
  unfold getRootScopeFromAbsolutePathstr
  have chosen : ∀ {scope'}, (ctfScopes.find? fun scope => (absolutePathPrefixes scope).toList.isPrefixOf
      pathstr.toList) = some scope' → (absolutePathPrefixes scope').toList <+: pathstr.toList :=
    fun found => isPrefixOf_iff_prefix.1 (find?_some (p := fun scope => (absolutePathPrefixes scope).toList.isPrefixOf
      pathstr.toList) found)
  refine ⟨chosen, fun starts => ?_⟩
  cases found : ctfScopes.find? fun scope => (absolutePathPrefixes scope).toList.isPrefixOf pathstr.toList with
  | none =>
      have listed : scope ∈ ctfScopes := by cases scope <;> simp [ctfScopes]
      have refused := find?_eq_none.1 found scope listed
      have startsWith : (absolutePathPrefixes scope).toList.isPrefixOf pathstr.toList = true :=
        isPrefixOf_iff_prefix.2 starts
      rw [startsWith] at refused
      cases refused rfl
  | some scope' => rw [absolutePathPrefixes_prefix_eq (chosen found) starts]

theorem splitOn_dot_tokens_append :
    ∀ (ts : List (List Char)), (∀ t ∈ ts, '.' ∉ t) → ∀ rest : List Char,
      ((ts.map (· ++ ['.'])).flatten ++ rest).splitOn '.' = ts ++ rest.splitOn '.'
  | [], _, _ => rfl
  | t :: ts, noDot, rest => by
      rw [map_cons, flatten_cons, append_assoc, append_assoc, singleton_append,
        splitOn_dot_append (noDot t (mem_cons_self t ts)),
        splitOn_dot_tokens_append ts (fun t' mem => noDot t' (mem_cons_of_mem t mem)) rest, cons_append]

/-- Each absolute prefix is `absolute_path_prefix_ptoken_counts` `.`-free tokens,
each followed by `.`. -/
theorem absolutePathPrefixes_tokens (scope : CtfScope) :
    ∃ ts : List (List Char), (∀ t ∈ ts, '.' ∉ t) ∧ ts.length = absolutePathPrefixPtokenCounts scope ∧
      (ts.map (· ++ ['.'])).flatten = (absolutePathPrefixes scope).toList := by
  refine ⟨((absolutePathPrefixes scope).toList.splitOn '.').dropLast, ?_, ?_, ?_⟩ <;> cases scope <;> decide

/-- The two tables of absolute prefixes agree. For every path string that lexes
and that `get_root_scope_from_absolute_pathstr` finds absolute, its first
`absolute_path_prefix_ptoken_counts` tokens, each followed by `.`, spell the
prefix of the scope found, and at least one token follows them: the walk of
`absolute_ptokens_to_field_path` skips exactly the prefix and starts from a
token. -/
theorem absolutePathPrefix_ptokens_consistent {pathstr : String} {ptokens : List String} {scope : CtfScope}
    (lexed : pathstrToPtokens pathstr = some ptokens)
    (absolute : getRootScopeFromAbsolutePathstr pathstr = some scope) :
    ((ptokens.take (absolutePathPrefixPtokenCounts scope)).map (·.toList ++ ['.'])).flatten =
        (absolutePathPrefixes scope).toList ∧
      ptokens.drop (absolutePathPrefixPtokenCounts scope) ≠ [] := by
  obtain ⟨rest, split⟩ := (getRootScopeFromAbsolutePathstr_eq_some_iff pathstr scope).1 absolute
  obtain ⟨ts, noDot, count, spelled⟩ := absolutePathPrefixes_tokens scope
  rw [pathstrToPtokens_eq] at lexed
  split_ifs at lexed
  cases lexed
  rw [← split, ← spelled, splitOn_dot_tokens_append ts noDot rest, map_append, ← count,
    take_left' (length_map _ _), drop_left' (length_map _ _), map_map]
  exact ⟨rfl, by simpa using splitOnP_ne_nil _ rest⟩

theorem absolutePathPrefix_ptokens_streamEventContext :
    pathstrToPtokens "stream.event.context.len" = some ["stream", "event", "context", "len"] ∧
      getRootScopeFromAbsolutePathstr "stream.event.context.len" = some .eventCommonContext ∧
      ((["stream", "event", "context", "len"].take (absolutePathPrefixPtokenCounts .eventCommonContext)).map
          (·.toList ++ ['.'])).flatten = (absolutePathPrefixes .eventCommonContext).toList ∧
      ["stream", "event", "context", "len"].drop (absolutePathPrefixPtokenCounts .eventCommonContext) ≠ [] :=
  have lexed : pathstrToPtokens "stream.event.context.len" = some ["stream", "event", "context", "len"] := by decide
  have absolute : getRootScopeFromAbsolutePathstr "stream.event.context.len" = some .eventCommonContext := by decide
  ⟨lexed, absolute, absolutePathPrefix_ptokens_consistent lexed absolute⟩

end Btrace.Ctf
