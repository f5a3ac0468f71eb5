import Bilisp.Proofs.Paths
import Bilisp.Proofs.ReadableForms

/-!
# Every symbol has a node

The parts of a symbol between `::`, and the segments of each part, are not empty, apart from one empty part in
front. So the symbols of a source never lack a node, and neither do its other atoms (`exists_atomNode`).
-/

namespace Bilisp

/-! ## Segments of paths -/

lemma splitPath_cons {c : Char} (hpoint : c ≠ '.') (hslash : c ≠ '/') (rest : Text) :
    ∃ segment segments, splitPath rest = segment :: segments ∧
      splitPath (c :: rest) = (c :: segment) :: segments := by
  rw [splitPath, if_neg (by simp [hpoint, hslash])]
  cases hsplit : splitPath rest with
  | nil => exact absurd hsplit (splitPath_ne_nil rest)
  | cons segment segments => exact ⟨segment, segments, rfl, rfl⟩

lemma splitAscription_cons {c : Char} {rest part : Text} {parts : List Text}
    (hc : ∀ t, c :: rest ≠ ':' :: ':' :: t) (hsplit : splitAscription rest = part :: parts) :
    splitAscription (c :: rest) = (c :: part) :: parts := by
  rw [splitAscription, hsplit]
  rintro t rfl rfl
  exact hc t rfl

/-- The parts of a path between `::` consist of segments. Where a segment has begun already, its rest is at the
front. -/
lemma segments_of_continuesPath {typed start : Bool} {t : Text} (h : continuesPath typed start t = true) :
    ∃ part parts segment segments, splitAscription t = part :: parts ∧ splitPath part = segment :: segments ∧
      (if start then isSegment segment else segment.all isSegmentChar) = true ∧
      (∀ other ∈ segments, isSegment other = true) ∧
      ∀ other ∈ parts, ∀ segment ∈ splitPath other, isSegment segment = true := by
  have hbegun {first : Text} {others : List Text}
      (hfirst : (if true then isSegment first else first.all isSegmentChar) = true)
      (hothers : ∀ other ∈ others, isSegment other = true) : ∀ other ∈ first :: others, isSegment other = true :=
    List.forall_mem_cons.2 ⟨hfirst, hothers⟩
  fun_induction continuesPath typed start t with
  | case1 start =>
    obtain rfl : start = false := by simpa using h
    exact ⟨[], [], [], [], rfl, rfl, rfl, List.forall_mem_nil _, List.forall_mem_nil _⟩
  | case2 c rest ih =>
    rw [Bool.and_eq_true] at h
    obtain ⟨hcolon, hpoint, hslash⟩ := segmentChar_ne (isSegmentChar_of_isSegmentStart h.1)
    obtain ⟨part, parts, segment, segments, hsplit, hpart, hsegment, hsegments, hparts⟩ := ih h.2
    obtain ⟨_, _, hpart', hcons⟩ := splitPath_cons hpoint hslash part
    obtain ⟨rfl, rfl⟩ := List.cons.inj (hpart.symm.trans hpart')
    refine ⟨c :: part, parts, c :: segment, segments, splitAscription_cons (by simp [hcolon]) hsplit, hcons, ?_,
      hsegments, hparts⟩
    rw [if_pos rfl, isSegment, h.1, Bool.true_and]
    exact hsegment
  | case3 rest ih =>
    rw [Bool.and_eq_true] at h
    obtain ⟨part, parts, segment, segments, hsplit, hpart, hsegment, hsegments, hparts⟩ := ih h.2
    refine ⟨[], part :: parts, [], [], by rw [splitAscription, hsplit], rfl, rfl, List.forall_mem_nil _, ?_⟩
    rw [List.forall_mem_cons, hpart]
    exact ⟨hbegun hsegment hsegments, hparts⟩
  | case4 c rest hne hc ih =>
    obtain ⟨part, parts, segment, segments, hsplit, hpart, hsegment, hsegments, hparts⟩ := ih h
    refine ⟨c :: part, parts, [], segment :: segments, splitAscription_cons ?_ hsplit, ?_, rfl,
      hbegun hsegment hsegments, hparts⟩
    · rintro t heq
      obtain ⟨rfl, rfl⟩ := List.cons.inj heq
      exact hne t rfl rfl
    · rw [splitPath, if_pos hc, hpart]
  | case5 c rest hne hc ih =>
    rw [Bool.and_eq_true] at h
    obtain ⟨hcolon, hpoint, hslash⟩ := segmentChar_ne h.1
    obtain ⟨part, parts, segment, segments, hsplit, hpart, hsegment, hsegments, hparts⟩ := ih h.2
    obtain ⟨_, _, hpart', hcons⟩ := splitPath_cons hpoint hslash part
    obtain ⟨rfl, rfl⟩ := List.cons.inj (hpart.symm.trans hpart')
    refine ⟨c :: part, parts, c :: segment, segments, splitAscription_cons (by simp [hcolon]) hsplit, hcons, ?_,
      hsegments, hparts⟩
    rw [if_neg Bool.false_ne_true, List.all_cons, h.1, Bool.true_and]
    exact hsegment

lemma splitAscription_of_hasAscription {t : Text} (h : hasAscription t = false) : splitAscription t = [t] := by
  fun_induction hasAscription t with
  | case1 rest => cases h
  | case2 c rest hne ih =>
    refine splitAscription_cons ?_ (ih h)
    rintro t heq
    obtain ⟨rfl, rfl⟩ := List.cons.inj heq
    exact hne t rfl rfl
  | case3 => rfl

/-! ## Nodes of symbols -/

lemma exists_pathNode? {s : Text} (h : ∀ segment ∈ splitPath s, segment ≠ []) : ∃ n, pathNode? s = some n := by
  have hfull : (splitPath s).any List.isEmpty = false := by simpa using h
  unfold pathNode?
  split
  next hsplit => exact absurd hsplit (splitPath_ne_nil s)
  next base fields hsplit =>
    rw [hsplit] at hfull
    rw [if_neg (by simp [hfull])]
    exact ⟨_, rfl⟩

lemma exists_mapM_pathNode? {parts : List Text}
    (h : ∀ part ∈ parts, ∀ segment ∈ splitPath part, segment ≠ []) :
    ∃ nodes, parts.mapM pathNode? = some nodes := by
  induction parts with
  | nil => exact ⟨[], rfl⟩
  | cons part rest ih =>
    obtain ⟨hpart, hrest⟩ := List.forall_mem_cons.1 h
    obtain ⟨n, hn⟩ := exists_pathNode? hpart
    obtain ⟨nodes, hnodes⟩ := ih hrest
    exact ⟨n :: nodes, by rw [List.mapM_cons, hn, hnodes]; rfl⟩

/-- The parts of a path that are ascribed consist of segments. -/
lemma segments_of_isPath {s : Text} (h : isPath s = true) :
    ∀ part ∈ ascribedParts s, ∀ segment ∈ splitPath part, isSegment segment = true := by
  unfold isPath at h
  split at h
  next rest =>
    obtain ⟨part, parts, segment, segments, hsplit, hpart, hsegment, hsegments, hparts⟩ := segments_of_continuesPath h
    rw [ascribedParts, splitAscription, hsplit, List.forall_mem_cons, hpart]
    exact ⟨List.forall_mem_cons.2 ⟨hsegment, hsegments⟩, hparts⟩
  next =>
    obtain ⟨part, parts, segment, segments, hsplit, hpart, hsegment, hsegments, hparts⟩ := segments_of_continuesPath h
    rw [ascribedParts, hsplit]
    cases part with
    | nil =>
      obtain ⟨rfl, -⟩ := List.cons.inj hpart
      cases hsegment
    | cons c rest =>
      dsimp only
      rw [List.forall_mem_cons, hpart]
      exact ⟨List.forall_mem_cons.2 ⟨hsegment, hsegments⟩, hparts⟩

/-- What is spelled as a symbol has a node. -/
theorem exists_symbolNode? {s : Text} (h : isSymbolText s = true) : ∃ n, symbolNode? s = some n := by
  rw [isSymbolText, Bool.or_eq_true] at h
  rw [symbolNode?]
  by_cases hoperator : isOperator s = true
  · exact ⟨.identifier s, if_pos hoperator⟩
  · have hsegments : ∀ part ∈ ascribedParts s, ∀ segment ∈ splitPath part, segment ≠ [] :=
      fun part hpart segment hsegment =>
        segment_ne_nil (segments_of_isPath (h.resolve_left hoperator) part hpart segment hsegment)
    rw [if_neg hoperator]
    split
    next hmark =>
      obtain ⟨nodes, hnodes⟩ := exists_mapM_pathNode? hsegments
      exact ⟨.ascription nodes, by rw [hnodes]; rfl⟩
    next hmark =>
      cases s with
      | nil => exact absurd h (by decide)
      | cons c rest =>
        rw [ascribedParts, splitAscription_of_hasAscription (by simpa using hmark)] at hsegments
        exact exists_pathNode? (hsegments _ List.mem_cons_self)

/-- Every atom that a source can write has a node. -/
lemma exists_atomNode {value : Atom} (h : value.Readable) (span : Option Span) :
    ∃ n, atomNode value span = .ok n := by
  cases value with
  | symbol name =>
    have htoken := lexemes?_eq_symbol_iff.1 h.1
    simp only [isSymbolToken, Bool.and_eq_true] at htoken
    obtain ⟨n, hn⟩ := exists_symbolNode? htoken.1.2
    exact ⟨n, by rw [atomNode, hn]⟩
  | character text =>
    obtain ⟨c, rfl⟩ := List.length_eq_one_iff.1 h
    exact ⟨_, rfl⟩
  | _ => exact ⟨_, rfl⟩

end Bilisp
