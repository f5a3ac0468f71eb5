import Bilisp.Proofs.SymbolGrammar
import Bilisp.Proofs.SymbolNodes

/-!
# How paths are written

A path is written as groups with `::` between them and, perhaps, in front; a group is written as segments with a point
or a slash between neighbours. The parts can be told from the text, since a segment holds none of these marks
(`PathWriting.text_injective`). What the scanner takes for a path is written so, and the conversion to nodes splits
every text that is written so into the same parts: a group becomes field accesses and several groups become an
ascription (`symbol_parts`).
-/

namespace Bilisp

/-! ## Parts of a path -/

/-- The characters that separate the parts of a path. -/
def pathMarks : List Char := [':', '.', '/']

/-- What is written between marks: a text that is not empty and holds no mark. -/
@[ext]
structure PathSegment where
  text : Text
  ne_nil : text ≠ []
  unmarked : ∀ c ∈ text, c ∉ pathMarks

/-- What separates the segments of a group. -/
inductive FieldMark where
  | point
  | slash

/-- The spelling of a mark between segments. -/
def FieldMark.char : FieldMark → Char
  | .point => '.'
  | .slash => '/'

/-- Segments with points and slashes between them: the first one, and each further one with the mark in front of it. -/
@[ext]
structure PathGroup where
  base : PathSegment
  fields : List (FieldMark × PathSegment)

/-- Groups with `::` between them, and whether it also stands in front. -/
@[ext]
structure PathWriting where
  marked : Bool
  first : PathGroup
  others : List PathGroup

namespace PathGroup

/-- The text of segments behind their marks. -/
def fieldsText (fields : List (FieldMark × PathSegment)) : Text :=
  fields.flatMap fun field => field.1.char :: field.2.text

/-- The text of a group. -/
def text (g : PathGroup) : Text := g.base.text ++ fieldsText g.fields

/-- The segments of a group in order. -/
def segments (g : PathGroup) : List PathSegment := g.base :: g.fields.map Prod.snd

/-- The host expression of a group: the first segment is an identifier, and each further one is a field of what stands
in front of it. -/
def node (g : PathGroup) : Node :=
  g.fields.foldl (fun base field => .dotAccess base (escapeSymbol field.2.text))
    (.identifier (escapeSymbol g.base.text))

end PathGroup

namespace PathWriting

/-- The text of a path. -/
def text (w : PathWriting) : Text :=
  (if w.marked then [':', ':'] else []) ++ (w.first.text ++ w.others.flatMap fun g => ':' :: ':' :: g.text)

/-- The groups of a path in order. -/
def groups (w : PathWriting) : List PathGroup := w.first :: w.others

/-- The segments of a path in order. -/
def segments (w : PathWriting) : List PathSegment := w.groups.flatMap PathGroup.segments

end PathWriting

/-! ## Parts are told from the text -/

lemma FieldMark.char_injective : Function.Injective FieldMark.char := by
  intro a b h
  cases a <;> cases b
  · rfl
  · cases h
  · cases h
  · rfl

lemma FieldMark.char_mem (mark : FieldMark) : mark.char ∈ pathMarks := by
  cases mark <;> decide

/-- A text without marks is told from what stands behind it, which begins with a mark. -/
lemma unmarked_append_inj {s s' t t' : Text} (hs : ∀ c ∈ s, c ∉ pathMarks) (hs' : ∀ c ∈ s', c ∉ pathMarks)
    (ht : ∀ c ∈ t.head?, c ∈ pathMarks) (ht' : ∀ c ∈ t'.head?, c ∈ pathMarks) (h : s ++ t = s' ++ t') :
    s = s' ∧ t = t' := by
  induction s generalizing s' with
  | nil =>
    cases s' with
    | nil => exact ⟨rfl, h⟩
    | cons c rest =>
      rw [List.nil_append] at h
      subst h
      exact absurd (ht c rfl) (hs' c List.mem_cons_self)
  | cons c rest ih =>
    cases s' with
    | nil =>
      rw [List.nil_append] at h
      subst h
      exact absurd (ht' c rfl) (hs c List.mem_cons_self)
    | cons d rest' =>
      obtain ⟨rfl, hrest⟩ := List.cons.inj h
      obtain ⟨rfl, rfl⟩ := ih (fun e he => hs e (List.mem_cons_of_mem _ he))
        (fun e he => hs' e (List.mem_cons_of_mem _ he)) hrest
      exact ⟨rfl, rfl⟩

namespace PathGroup

lemma head_fieldsText (fields : List (FieldMark × PathSegment)) : ∀ c ∈ (fieldsText fields).head?, c ∈ pathMarks := by
  cases fields with
  | nil => simp [fieldsText]
  | cons field rest =>
    rintro _ ⟨⟩
    exact field.1.char_mem

lemma unmarked_append_fieldsText {u u' : PathSegment} {fields fields' : List (FieldMark × PathSegment)}
    (h : u.text ++ fieldsText fields = u'.text ++ fieldsText fields') :
    u = u' ∧ fieldsText fields = fieldsText fields' := by
  obtain ⟨htext, hfields⟩ :=
    unmarked_append_inj u.unmarked u'.unmarked (head_fieldsText fields) (head_fieldsText fields') h
  exact ⟨PathSegment.ext htext, hfields⟩

lemma fieldsText_injective : Function.Injective fieldsText := by
  intro fields fields' h
  induction fields generalizing fields' with
  | nil =>
    cases fields' with
    | nil => rfl
    | cons field' rest' => cases h
  | cons field rest ih =>
    cases fields' with
    | nil => cases h
    | cons field' rest' =>
      obtain ⟨hmark, hbehind⟩ := List.cons.inj h
      obtain ⟨hsegment, hrest⟩ := unmarked_append_fieldsText hbehind
      rw [ih hrest, Prod.ext (FieldMark.char_injective hmark) hsegment]

/-- The segments and marks of a group are told from its text. -/
lemma text_injective : Function.Injective PathGroup.text := by
  intro g g' h
  obtain ⟨hbase, hfields⟩ := unmarked_append_fieldsText h
  exact PathGroup.ext hbase (fieldsText_injective hfields)

variable (g : PathGroup)

lemma text_ne_nil : g.text ≠ [] := List.append_ne_nil_of_left_ne_nil g.base.ne_nil _

lemma colon_not_mem_text : ':' ∉ g.text := by
  have hsegment (u : PathSegment) : ':' ∉ u.text := fun hmem => u.unmarked _ hmem (by decide)
  rw [text, List.mem_append, fieldsText, List.mem_flatMap, not_or]
  refine ⟨hsegment g.base, ?_⟩
  rintro ⟨⟨mark, u⟩, -, hmem⟩
  rcases List.mem_cons.1 hmem with hmark | hu
  · cases mark <;> cases hmark
  · exact hsegment u hu

lemma splitPath_append_fieldsText (u : PathSegment) (fields : List (FieldMark × PathSegment)) :
    splitPath (u.text ++ fieldsText fields) = u.text :: fields.map fun field => field.2.text := by
  have hsegment (u : PathSegment) : splitPath u.text = [u.text] :=
    splitPath_of_not_mem (fun hmem => u.unmarked _ hmem (by decide)) fun hmem => u.unmarked _ hmem (by decide)
  induction fields generalizing u with
  | nil => rw [fieldsText, List.flatMap_nil, List.append_nil, hsegment, List.map_nil]
  | cons field rest ih =>
    have hmark : field.1.char = '.' ∨ field.1.char = '/' := by
      cases field.1
      · exact .inl rfl
      · exact .inr rfl
    rw [fieldsText, List.flatMap_cons, List.cons_append, splitPath_append hmark, hsegment]
    exact congrArg (u.text :: ·) (ih field.2)

/-- A group is split at its marks into field accesses. -/
lemma pathNode?_text : pathNode? g.text = some g.node := by
  have hsplit := splitPath_append_fieldsText g.base g.fields
  have hfull : (g.base.text :: g.fields.map fun field => field.2.text).any List.isEmpty = false := by
    rw [List.any_eq_false]
    intro u hu
    rw [List.isEmpty_iff]
    rcases List.mem_cons.1 hu with rfl | hu
    · exact g.base.ne_nil
    · obtain ⟨field, -, rfl⟩ := List.mem_map.1 hu
      exact field.2.ne_nil
  rw [pathNode?, text, hsplit]
  dsimp only
  rw [hfull, if_neg Bool.false_ne_true, List.foldl_map]
  rfl

end PathGroup

lemma mapM_pathNode?_text (groups : List PathGroup) :
    (groups.map PathGroup.text).mapM pathNode? = some (groups.map PathGroup.node) := by
  induction groups with
  | nil => rfl
  | cons g rest ih =>
    rw [List.map_cons, List.mapM_cons, g.pathNode?_text, ih]
    rfl

namespace PathWriting

/-- The occurrences of `::` in a path separate its groups; there is an empty part in front of the first one. -/
lemma splitAscription_text (w : PathWriting) :
    splitAscription w.text = (if w.marked then [[]] else []) ++ w.groups.map PathGroup.text := by
  obtain ⟨marked, first, others⟩ := w
  have hgroups : splitAscription (first.text ++ others.flatMap fun g => ':' :: ':' :: g.text) =
      (first :: others).map PathGroup.text := by
    induction others generalizing first with
    | nil =>
      rw [List.flatMap_nil, List.append_nil]
      exact splitAscription_of_not_mem first.colon_not_mem_text
    | cons g rest ih =>
      rw [List.flatMap_cons, List.cons_append, List.cons_append, splitAscription_append first.colon_not_mem_text, ih g]
      rfl
  cases marked with
  | true => exact (congrArg ([] :: ·) hgroups : [] :: splitAscription _ = _)
  | false => exact hgroups

/-- The groups of a path, their segments and all marks are told from its text. -/
theorem text_injective : Function.Injective PathWriting.text := by
  intro w w' h
  have hparts := congrArg splitAscription h
  rw [splitAscription_text, splitAscription_text] at hparts
  obtain ⟨marked, first, others⟩ := w
  obtain ⟨marked', first', others'⟩ := w'
  have hgroups : (first :: others).map PathGroup.text = (first' :: others').map PathGroup.text → first = first' ∧
      others = others' := fun heq => List.cons.inj (List.map_injective_iff.2 PathGroup.text_injective heq)
  cases marked <;> cases marked'
  · obtain ⟨rfl, rfl⟩ := hgroups hparts
    rfl
  · exact absurd (List.cons.inj hparts).1 first.text_ne_nil
  · exact absurd (List.cons.inj hparts).1.symm first'.text_ne_nil
  · obtain ⟨rfl, rfl⟩ := hgroups (List.cons.inj hparts).2
    rfl

/-- The parts of a path that are ascribed are its groups. -/
lemma ascribedParts_text (w : PathWriting) : ascribedParts w.text = w.groups.map PathGroup.text := by
  rw [ascribedParts, splitAscription_text]
  cases w.marked with
  | true => rfl
  | false =>
    obtain ⟨c, rest, htext⟩ := List.exists_cons_of_ne_nil w.first.text_ne_nil
    rw [groups, List.map_cons, htext]
    rfl

/-- A path without `::` is one group. -/
lemma single_of_hasAscription {w : PathWriting} (h : hasAscription w.text = false) :
    w.marked = false ∧ w.others = [] := by
  have hparts := congrArg List.length (w.splitAscription_text.symm.trans (splitAscription_of_hasAscription h))
  rw [groups, List.length_append, List.length_map, List.length_cons, List.length_singleton] at hparts
  cases hmarked : w.marked with
  | true => simp [hmarked] at hparts
  | false => exact ⟨rfl, by simpa [hmarked] using hparts⟩

/-- The node of a path, unless it is an operator, is an ascription if `::` occurs in it, and the node of its only group
if not. -/
lemma symbolNode?_text {w : PathWriting} (h : isOperator w.text = false) :
    symbolNode? w.text =
      some (if hasAscription w.text then .ascription (w.groups.map PathGroup.node) else w.first.node) := by
  rw [symbolNode?, h, if_neg Bool.false_ne_true]
  cases hmark : hasAscription w.text with
  | true =>
    rw [if_pos rfl, if_pos rfl, ascribedParts_text, mapM_pathNode?_text]
    rfl
  | false =>
    obtain ⟨hmarked, hothers⟩ := single_of_hasAscription hmark
    have htext : w.text = w.first.text := by simp [text, hmarked, hothers]
    rw [if_neg Bool.false_ne_true, if_neg Bool.false_ne_true, htext, PathGroup.pathNode?_text]

end PathWriting

/-! ## Paths of the scanner -/

/-- A segment of the scanner as a part of a path. -/
def PathSegment.ofSegment (u : Text) (h : isSegment u = true) : PathSegment where
  text := u
  ne_nil := segment_ne_nil h
  unmarked c hc := by
    obtain ⟨hcolon, hpoint, hslash⟩ := segmentChar_ne (List.all_eq_true.1 (all_isSegmentChar h) c hc)
    simp [pathMarks, hcolon, hpoint, hslash]

namespace PathWriting

/-- Whether all segments of a path are segments of the scanner. -/
def Regular (w : PathWriting) : Prop := ∀ segment ∈ w.segments, isSegment segment.text = true

/-- A segment in front of a path that does not begin with `::`, with a mark between the two. -/
def afterField (u : PathSegment) (mark : FieldMark) (w : PathWriting) : PathWriting :=
  ⟨false, ⟨u, (mark, w.first.base) :: w.first.fields⟩, w.others⟩

/-- A segment in front of a path that does not begin with `::`, with `::` between the two. -/
def afterGroup (u : PathSegment) (w : PathWriting) : PathWriting := ⟨false, ⟨u, []⟩, w.groups⟩

lemma text_afterField (w : PathWriting) {u : PathSegment} (mark : FieldMark) (hw : w.marked = false) :
    (w.afterField u mark).text = u.text ++ mark.char :: w.text := by
  simp [afterField, text, PathGroup.text, PathGroup.fieldsText, hw]

lemma text_afterGroup (w : PathWriting) {u : PathSegment} (hw : w.marked = false) :
    (w.afterGroup u).text = u.text ++ ':' :: ':' :: w.text := by
  simp [afterGroup, text, groups, PathGroup.text, PathGroup.fieldsText, hw]

variable {u : PathSegment} {w : PathWriting}

lemma Regular.afterField (hw : w.Regular) (hu : isSegment u.text = true) (mark : FieldMark) :
    (w.afterField u mark).Regular := List.forall_mem_cons.2 ⟨hu, hw⟩

lemma Regular.afterGroup (hw : w.Regular) (hu : isSegment u.text = true) : (w.afterGroup u).Regular :=
  List.forall_mem_cons.2 ⟨hu, hw⟩

end PathWriting

/-- A segment with further segments behind separators is a path. -/
lemma exists_writing_of_segments {u : Text} (hu : isSegment u = true) {parts : List Text}
    (hparts : ∀ part ∈ parts, part ∈ furtherSegments true) :
    ∃ w : PathWriting, w.marked = false ∧ w.text = u ++ parts.flatten ∧ w.Regular := by
  induction parts generalizing u with
  | nil =>
    refine ⟨⟨false, ⟨.ofSegment u hu, []⟩, []⟩, rfl, ?_, List.forall_mem_cons.2 ⟨hu, List.forall_mem_nil _⟩⟩
    simp [PathWriting.text, PathGroup.text, PathGroup.fieldsText, PathSegment.ofSegment]
  | cons part parts ih =>
    rw [List.forall_mem_cons] at hparts
    obtain ⟨separator, hseparator, v, hv, rfl⟩ := Language.mem_mul.1 hparts.1
    obtain ⟨w, hmarked, htext, hw⟩ := ih hv hparts.2
    -- A point or a slash puts the segment into the first group of the rest, `::` into a group of its own.
    rw [List.flatten_cons, List.append_assoc, ← htext]
    rcases mem_separators.1 hseparator with rfl | rfl | ⟨rfl, -⟩
    · exact ⟨w.afterField (.ofSegment u hu) .point, rfl, w.text_afterField .point hmarked, hw.afterField hu .point⟩
    · exact ⟨w.afterField (.ofSegment u hu) .slash, rfl, w.text_afterField .slash hmarked, hw.afterField hu .slash⟩
    · exact ⟨w.afterGroup (.ofSegment u hu), rfl, w.text_afterGroup hmarked, hw.afterGroup hu⟩

/-- What is spelled as a symbol and is no operator is written as a path of segments. -/
lemma exists_writing {t : Text} (h : isSymbolText t = true) (hoperator : isOperator t = false) :
    ∃ w : PathWriting, w.text = t ∧ w.Regular := by
  rcases isSymbolText_iff.1 h with hop | hpath
  · exact absurd (hoperator.symm.trans hop) Bool.false_ne_true
  · obtain ⟨lead, hlead, rest, hrest, rfl⟩ := Language.mem_mul.1 hpath
    obtain ⟨u, hu, behind, hbehind, rfl⟩ := Language.mem_mul.1 hrest
    obtain ⟨parts, rfl, hparts⟩ := Language.mem_kstar.1 hbehind
    obtain ⟨w, hmarked, htext, hw⟩ := exists_writing_of_segments hu hparts
    rcases hlead with rfl | rfl
    · exact ⟨w, htext, hw⟩
    · refine ⟨{ w with marked := true }, ?_, hw⟩
      rw [← htext, PathWriting.text, PathWriting.text, hmarked]
      rfl

/-- A symbol of a source has a node. If it is no operator, it is written as a path in exactly one way: as groups with
`::` between them and perhaps in front, each made of segments with points and slashes between them. If `::` occurs in
it, the node is an ascription of the nodes of its groups in order, and if not, it is the node of its only group. -/
theorem symbol_parts {source : Text} {token : Token} {t : Text} (htoken : token ∈ (tokens source).items)
    (hsymbol : token.lexeme = .symbol t) :
    (∀ span, ∃ n, atomNode (.symbol t) span = .ok n) ∧
    (isOperator t = false → ∃ w : PathWriting, w.text = t ∧ (∀ w' : PathWriting, w'.text = t → w' = w) ∧ w.Regular ∧
      ∀ span,
        ("::".toList <:+: t → atomNode (.symbol t) span = .ok (.ascription (w.groups.map PathGroup.node))) ∧
        (¬"::".toList <:+: t →
          w.marked = false ∧ w.groups = [w.first] ∧ atomNode (.symbol t) span = .ok w.first.node)) := by
  obtain ⟨text, rest, hscan⟩ := scans_of_mem_tokensFrom htoken
  rw [hsymbol] at hscan
  obtain ⟨rfl, -, htoken, -⟩ := scans_symbol_iff.1 hscan
  have htext := (isSymbolToken_iff.1 htoken).1
  refine ⟨fun span => ?_, fun hoperator => ?_⟩
  · obtain ⟨n, hn⟩ := exists_symbolNode? htext
    exact ⟨n, by rw [atomNode, hn]⟩
  · obtain ⟨w, hw, hregular⟩ := exists_writing htext hoperator
    refine ⟨w, hw, fun w' hw' => PathWriting.text_injective (hw'.trans hw.symm), hregular, fun span => ?_⟩
    rw [← hw] at hoperator ⊢
    rw [← hasAscription_iff, atomNode, PathWriting.symbolNode?_text hoperator]
    refine ⟨fun hmark => by rw [if_pos hmark], fun hmark => ?_⟩
    obtain ⟨hmarked, hothers⟩ := PathWriting.single_of_hasAscription (by simpa using hmark)
    exact ⟨hmarked, by rw [PathWriting.groups, hothers], by rw [if_neg hmark]⟩

/-- A name and its type, which is a field of a field. -/
def sampleWriting : PathWriting where
  marked := false
  first := ⟨.ofSegment "x?" (by decide), []⟩
  others := [⟨.ofSegment "a" (by decide),
    [(.point, .ofSegment "b" (by decide)), (.slash, .ofSegment "c-d" (by decide))]⟩]

theorem symbol_parts_sample :
    ⟨.symbol "x?::a.b/c-d", "x?::a.b/c-d", ⟨⟨1, 1, 0⟩, ⟨1, 12, 11⟩⟩⟩ ∈ (tokens "x?::a.b/c-d)").items ∧
      isOperator "x?::a.b/c-d" = false ∧ sampleWriting.text = "x?::a.b/c-d".toList ∧
      atomNode (.symbol "x?::a.b/c-d") none =
        .ok (.ascription [.identifier "x_QMARK_", .dotAccess (.dotAccess (.identifier "a") "b") "c_d"]) := by
  have hends : EndsAtom [')'] := by
    rintro _ ⟨⟩
    decide
  have hscan : Scans "x?::a.b/c-d)" (.symbol "x?::a.b/c-d") "x?::a.b/c-d" [')'] :=
    scans_symbol_iff.2 ⟨rfl, rfl, by decide, hends⟩
  have htoken :
      ⟨.symbol "x?::a.b/c-d", "x?::a.b/c-d", ⟨⟨1, 1, 0⟩, ⟨1, 12, 11⟩⟩⟩ ∈ (tokens "x?::a.b/c-d)").items := by
    rw [tokens, tokensFrom_of_scans hscan]
    exact List.mem_cons_self
  have hoperator : isOperator "x?::a.b/c-d" = false := by decide
  have htext : sampleWriting.text = "x?::a.b/c-d".toList := by decide
  obtain ⟨w, -, hunique, -, hnode⟩ := (symbol_parts htoken rfl).2 hoperator
  obtain rfl := hunique sampleWriting htext
  exact ⟨htoken, hoperator, htext, (hnode none).1 (hasAscription_iff.1 (by decide))⟩

end Bilisp
