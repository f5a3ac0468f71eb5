import Bilisp.Form.OfNode
import Bilisp.Proofs.HostNames
import Bilisp.Proofs.ReadableForms

/-!
# Nodes that are written as one symbol

A name, a field of a path and a path with a type each have a symbol that is converted back to them. The symbol
of a path joins its segments by points (`PathPair`); the symbol of an ascription joins names by `::`, or a path
and the name of its type.
-/

namespace Bilisp

/-! ## Operators in joined names -/

/-- A text made of two texts around a separator is an operator when both texts are. -/
lemma isOperator_append_iff {s t : Text} (separator : Text)
    (hseparator : separator.all operatorChars.contains = true) (hs : s ≠ []) (ht : t ≠ []) :
    isOperator (s ++ (separator ++ t)) = true ↔ isOperator s = true ∧ isOperator t = true := by
  rw [List.all_eq_true] at hseparator
  simp only [isOperator_iff, List.forall_mem_append]
  constructor
  · rintro ⟨-, h1, -, h2⟩
    exact ⟨⟨hs, h1⟩, ht, h2⟩
  · rintro ⟨⟨-, h1⟩, -, h2⟩
    exact ⟨by simp [hs], h1, hseparator, h2⟩

/-! ## Paths -/

/-- Whether a node is a name, or a field of a field and so on of a name. -/
def Node.isPath : Node → Bool
  | .identifier _ => true
  | .dotAccess base _ => isPath base
  | _ => false

lemma isPath_of_pathNode? {s : Text} {n : Node} (h : pathNode? s = some n) : n.isPath = true := by
  have hfold : ∀ (fields : List Text) (base : Node),
      (fields.foldl (fun node field => .dotAccess node (escapeSymbol field)) base).isPath = base.isPath := by
    intro fields
    induction fields with
    | nil => exact fun base => rfl
    | cons field rest ih => exact fun base => ih (.dotAccess base (escapeSymbol field))
  unfold pathNode? at h
  split at h
  · cases h
  · split at h
    · cases h
    · rw [← Option.some.inj h, hfold]
      rfl

/-- A symbol stands for a path or for an ascription. -/
lemma symbolNode?_cases {s : Text} {n : Node} (h : symbolNode? s = some n) :
    n.isPath = true ∨ (hasAscription s = true ∧ ∃ operands, n = .ascription operands) := by
  rw [symbolNode?] at h
  split at h
  · rw [← Option.some.inj h]
    exact .inl rfl
  · split at h
    next hmark =>
      obtain ⟨operands, -, rfl⟩ := Option.map_eq_some_iff.1 h
      exact .inr ⟨hmark, operands, rfl⟩
    · exact .inl (isPath_of_pathNode? h)

/-- Whether a node is a name or a chain of fields behind a name, and the text joins its segments by points.
A name that stands for no value has no symbol. -/
inductive JoinsPath : Node → Text → Prop
  | name {host segment : Text} (hpair : NamePair host segment) (hhost : host ≠ Node.nothingName) :
    JoinsPath (.identifier host) segment
  | field {base : Node} {s host segment : Text} (hbase : JoinsPath base s) (hpair : NamePair host segment) :
    JoinsPath (.dotAccess base host) (s ++ '.' :: segment)

namespace JoinsPath

variable {n : Node} {s : Text}

lemma ne_nil (h : JoinsPath n s) : s ≠ [] := by
  cases h with
  | name hpair hhost => exact segment_ne_nil hpair.isSegment
  | field hbase hpair => simp

lemma colon_not_mem (h : JoinsPath n s) : ':' ∉ s := by
  induction h with
  | name hpair hhost => exact colon_not_mem_segment hpair.isSegment
  | field hbase hpair ih =>
    rw [List.mem_append, List.mem_cons, not_or, not_or]
    exact ⟨ih, by decide, colon_not_mem_segment hpair.isSegment⟩

lemma all_isAtomChar (h : JoinsPath n s) : s.all isAtomChar = true := by
  have hpoint : isAtomChar '.' = true := by decide
  induction h with
  | name hpair hhost => exact all_isAtomChar_segment hpair.isSegment
  | field hbase hpair ih =>
    rw [List.all_append, List.all_cons, ih, hpoint, all_isAtomChar_segment hpair.isSegment]
    rfl

lemma continuesPath (h : JoinsPath n s) : continuesPath true true s = true := by
  induction h with
  | name hpair hhost => exact continuesPath_segment true hpair.isSegment
  | field hbase hpair ih => exact continuesPath_append_segment ih (point_mem_separators _) hpair.isSegment

end JoinsPath

lemma pathNode?_segment {segment : Text} (h : isSegment segment = true) :
    pathNode? segment = some (.identifier (escapeSymbol segment)) := by
  have hne : segment.isEmpty = false := by simpa using segment_ne_nil h
  simp [pathNode?, splitPath_segment (all_isSegmentChar h), hne]

lemma pathNode?_append {segment : Text} (h : isSegment segment = true) (t : Text) :
    pathNode? (t ++ '.' :: segment) =
      (pathNode? t).map fun base => .dotAccess base (escapeSymbol segment) := by
  have hne : segment.isEmpty = false := by simpa using segment_ne_nil h
  rw [pathNode?, splitPath_append (.inl rfl), splitPath_segment (all_isSegmentChar h), pathNode?]
  cases hsplit : splitPath t with
  | nil => exact absurd hsplit (splitPath_ne_nil t)
  | cons base fields =>
    have hany : (base :: (fields ++ [segment])).any List.isEmpty = (base :: fields).any List.isEmpty := by
      rw [← List.cons_append, List.any_append, List.any_cons (a := segment), hne]
      simp
    rw [List.cons_append]
    dsimp only
    rw [hany, List.foldl_append]
    split <;> rfl

namespace JoinsPath

variable {n : Node} {s : Text}

lemma pathNode? (h : JoinsPath n s) : pathNode? s = some n := by
  induction h with
  | name hpair hhost => rw [pathNode?_segment hpair.isSegment, hpair.escape]
  | field hbase hpair ih => rw [pathNode?_append hpair.isSegment, ih, hpair.escape, Option.map_some]

/-- The symbol of a path is converted to the path, unless points make an operator of operators. -/
lemma symbolNode? (h : JoinsPath n s) (hoperator : isOperator s = true → n = .identifier s) :
    symbolNode? s = some n := by
  rw [Bilisp.symbolNode?]
  by_cases hop : isOperator s = true
  · rw [if_pos hop, hoperator hop]
  · rw [if_neg hop, hasAscription_of_not_mem h.colon_not_mem, if_neg Bool.false_ne_true, h.pathNode?]

/-- A path is written as its symbol. -/
lemma toForm (h : JoinsPath n s) (top : Bool) : n.toForm top = .ok (.symbol s) := by
  induction h generalizing top with
  | name hpair hhost => rw [Node.toForm, nameForm, if_neg hhost, hpair.unescape]; rfl
  | field hbase hpair ih =>
    have hcolon := hasAscription_of_not_mem hbase.colon_not_mem
    rw [Node.toForm, ih, hpair.unescape]
    change Except.ok (fieldForm (.symbol _) _) = _
    rw [Form.symbol, fieldForm, hcolon, if_neg Bool.false_ne_true, List.append_assoc]
    rfl

/-- The symbol of a path is spelled as one, unless it begins like a number. -/
lemma isSymbolToken (h : JoinsPath n s) (hstart : startsNumber s = false) : isSymbolToken s = true :=
  isSymbolToken_of_isPath h.all_isAtomChar h.continuesPath hstart

end JoinsPath

/-- Whether a text joins the segments of a path, and nowhere in it two operators meet. -/
inductive PathPair : Node → Text → Prop
  | name {host segment : Text} (hpair : NamePair host segment) (hhost : host ≠ Node.nothingName) :
    PathPair (.identifier host) segment
  | field {base : Node} {s host segment : Text} (hbase : PathPair base s) (hpair : NamePair host segment)
    (hoperator : ¬(isOperator s = true ∧ isOperator segment = true)) :
    PathPair (.dotAccess base host) (s ++ '.' :: segment)

namespace PathPair

variable {n : Node} {s : Text}

lemma joins (h : PathPair n s) : JoinsPath n s := by
  induction h with
  | name hpair hhost => exact .name hpair hhost
  | field hbase hpair hoperator ih => exact .field ih hpair

lemma ne_nil (h : PathPair n s) : s ≠ [] := h.joins.ne_nil

lemma colon_not_mem (h : PathPair n s) : ':' ∉ s := h.joins.colon_not_mem

lemma all_isAtomChar (h : PathPair n s) : s.all isAtomChar = true := h.joins.all_isAtomChar

lemma continuesPath (h : PathPair n s) : continuesPath true true s = true := h.joins.continuesPath

/-- Only a name alone can be an operator. -/
lemma eq_identifier (h : PathPair n s) (hs : isOperator s = true) : n = .identifier s := by
  cases h with
  | name hpair hhost => rw [← hpair.escape, escapeSymbol_operator hs]
  | field hbase hpair hoperator =>
    exact absurd ((isOperator_append_iff ['.'] rfl hbase.ne_nil (segment_ne_nil hpair.isSegment)).1 hs) hoperator

lemma symbolNode? (h : PathPair n s) : symbolNode? s = some n := h.joins.symbolNode? h.eq_identifier

lemma toForm (h : PathPair n s) (top : Bool) : n.toForm top = .ok (.symbol s) := h.joins.toForm top

lemma isSymbolToken (h : PathPair n s) (hstart : startsNumber s = false) : isSymbolToken s = true :=
  h.joins.isSymbolToken hstart

end PathPair

/-! ## Ascriptions -/

lemma join_cons_cons (separator t t' : Text) (texts : List Text) :
    Text.join separator (t :: t' :: texts) = t ++ (separator ++ Text.join separator (t' :: texts)) := by
  rw [Text.join, List.intercalate_cons_cons, List.append_assoc]
  rfl

lemma join_singleton (separator t : Text) : Text.join separator [t] = t := List.intercalate_singleton

/-- A node and the text of its path, which may stand in an ascription. -/
structure TypePart (n : Node) (t : Text) : Prop where
  node : pathNode? t = some n
  path : continuesPath true true t = true
  atoms : t.all isAtomChar = true
  colon : ':' ∉ t

lemma TypePart.ne_nil {n : Node} {t : Text} (h : TypePart n t) : t ≠ [] := by
  rintro rfl
  cases h.path

lemma NamePair.typePart {host segment : Text} (h : NamePair host segment) :
    TypePart (.identifier host) segment where
  node := by rw [pathNode?_segment h.isSegment, h.escape]
  path := continuesPath_segment true h.isSegment
  atoms := all_isAtomChar_segment h.isSegment
  colon := colon_not_mem_segment h.isSegment

lemma JoinsPath.typePart {n : Node} {s : Text} (h : JoinsPath n s) : TypePart n s :=
  ⟨h.pathNode?, h.continuesPath, h.all_isAtomChar, h.colon_not_mem⟩

section

variable {parts : List (Node × Text)} (hparts : ∀ p ∈ parts, TypePart p.1 p.2)

include hparts

lemma join_ne_nil (hne : parts ≠ []) : Text.join "::" (parts.map Prod.snd) ≠ [] := by
  match parts with
  | [] => exact absurd rfl hne
  | [p] =>
    rw [List.map_cons, List.map_nil, join_singleton]
    exact (hparts p List.mem_cons_self).ne_nil
  | p :: q :: rest =>
    rw [List.map_cons, List.map_cons, join_cons_cons]
    simp

/-- Parts that are not all operators make no operator. -/
lemma isOperator_join (hoperator : ∃ p ∈ parts, isOperator p.2 = false) :
    isOperator (Text.join "::" (parts.map Prod.snd)) = false := by
  induction parts with
  | nil => simp at hoperator
  | cons p rest ih =>
    have hp := hparts p List.mem_cons_self
    have hrest : ∀ q ∈ rest, TypePart q.1 q.2 := fun q hq => hparts q (List.mem_cons_of_mem _ hq)
    cases rest with
    | nil =>
      rw [List.map_cons, List.map_nil, join_singleton]
      simpa using hoperator
    | cons q rest =>
      rw [List.map_cons, List.map_cons, join_cons_cons, ← List.map_cons]
      rw [← Bool.not_eq_true, isOperator_append_iff _ rfl hp.ne_nil (join_ne_nil hrest (List.cons_ne_nil _ _))]
      rintro ⟨hop, hops⟩
      obtain ⟨r, hr, hr'⟩ := hoperator
      rcases List.mem_cons.1 hr with rfl | hr
      · rw [hop] at hr'
        cases hr'
      · rw [ih hrest ⟨r, hr, hr'⟩] at hops
        cases hops

/-- Paths joined by `::` are converted to the ascription of their nodes. -/
lemma symbolNode?_join (hlength : 2 ≤ parts.length) (hoperator : ∃ p ∈ parts, isOperator p.2 = false) :
    symbolNode? (Text.join "::" (parts.map Prod.snd)) = some (.ascription (parts.map Prod.fst)) := by
  have hnodes : (parts.map Prod.snd).mapM pathNode? = some (parts.map Prod.fst) := by
    clear hlength hoperator
    induction parts with
    | nil => rfl
    | cons p rest ih =>
      rw [List.map_cons, List.mapM_cons, (hparts p List.mem_cons_self).node,
        ih fun q hq => hparts q (List.mem_cons_of_mem _ hq)]
      rfl
  have hsplit : ascribedParts (Text.join "::" (parts.map Prod.snd)) = parts.map Prod.snd := by
    have hcolon : ∀ u ∈ parts.map Prod.snd, ':' ∉ u := by
      intro u hu
      obtain ⟨p, hp, rfl⟩ := List.mem_map.1 hu
      exact (hparts p hp).colon
    have hne : parts.map Prod.snd ≠ [] := by
      intro hnil
      rw [List.map_eq_nil_iff] at hnil
      rw [hnil] at hlength
      simp at hlength
    rw [ascribedParts, splitAscription_join hne hcolon]
    cases parts with
    | nil => rfl
    | cons p rest =>
      have hp := (hparts p List.mem_cons_self).ne_nil
      rw [List.map_cons]
      split
      next heq => exact absurd (List.cons.inj heq).1 hp
      next => rfl
  have hmarked : hasAscription (Text.join "::" (parts.map Prod.snd)) = true := by
    obtain ⟨p, q, rest, rfl⟩ := exists_cons_cons hlength
    rw [List.map_cons, List.map_cons, join_cons_cons]
    exact hasAscription_append p.2 _
  rw [symbolNode?, isOperator_join hparts hoperator, if_neg Bool.false_ne_true, if_pos hmarked, hsplit, hnodes]
  rfl

/-- Paths joined by `::` are spelled as a symbol, unless the first one begins like a number. -/
lemma isSymbolToken_join {p : Node × Text} {rest : List (Node × Text)} (hfirst : parts = p :: rest)
    (hstart : startsNumber p.2 = false) : isSymbolToken (Text.join "::" (parts.map Prod.snd)) = true := by
  have hcolon : isAtomChar ':' = true := by decide
  have hjoined : ∀ parts : List (Node × Text), (∀ p ∈ parts, TypePart p.1 p.2) → parts ≠ [] →
      (Text.join "::" (parts.map Prod.snd)).all isAtomChar = true ∧
        continuesPath true true (Text.join "::" (parts.map Prod.snd)) = true := by
    intro parts hparts hne
    induction parts with
    | nil => exact absurd rfl hne
    | cons p rest ih =>
      have hp := hparts p List.mem_cons_self
      cases rest with
      | nil =>
        rw [List.map_cons, List.map_nil, join_singleton]
        exact ⟨hp.atoms, hp.path⟩
      | cons q rest =>
        obtain ⟨hatoms, hpath⟩ := ih (fun r hr => hparts r (List.mem_cons_of_mem _ hr)) (List.cons_ne_nil _ _)
        rw [List.map_cons, List.map_cons, join_cons_cons, ← List.map_cons]
        refine ⟨?_, (continuesPath_append hp.path colons_mem_separators _).trans hpath⟩
        rw [List.all_append, List.all_append, hp.atoms, hatoms]
        simp [hcolon]
  obtain ⟨hatoms, hpath⟩ := hjoined parts hparts (by rw [hfirst]; exact List.cons_ne_nil _ _)
  refine isSymbolToken_of_isPath hatoms hpath ?_
  subst hfirst
  cases rest with
  | nil => rwa [List.map_cons, List.map_nil, join_singleton]
  | cons q rest =>
    rw [List.map_cons, List.map_cons, join_cons_cons]
    exact (startsNumber_append (hparts p List.mem_cons_self).ne_nil (by decide) _).trans hstart

end

/-- The symbol of a type alone. -/
lemma symbolNode?_typeName {host segment : Text} (hpair : NamePair host segment)
    (hoperator : isOperator segment = false) :
    symbolNode? ("::" ++ segment) = some (.ascription [.identifier host]) := by
  have hop : isOperator (("::" : Text) ++ segment) = false := by
    rw [← Bool.not_eq_true, isOperator_iff, not_and, List.forall_mem_append, not_and]
    intro _ _ hchars
    rw [isOperator_iff.2 ⟨segment_ne_nil hpair.isSegment, hchars⟩] at hoperator
    cases hoperator
  have hparts : ascribedParts (("::" : Text) ++ segment) = [segment] := by
    have hsplit : splitAscription (("::" : Text) ++ segment) = [[], segment] := by
      change [] :: splitAscription segment = _
      rw [splitAscription_of_not_mem (colon_not_mem_segment hpair.isSegment)]
    rw [ascribedParts, hsplit]
  have hmarked : hasAscription (("::" : Text) ++ segment) = true := rfl
  rw [symbolNode?, hop, if_neg Bool.false_ne_true, if_pos hmarked, hparts, List.mapM_cons, hpair.typePart.node]
  rfl

lemma isSymbolToken_typeName {segment : Text} (h : isSegment segment = true) :
    isSymbolToken (("::" : Text) ++ segment) = true := by
  have hcolon : isAtomChar ':' = true := by decide
  have hpath : isPath (("::" : Text) ++ segment) = true := continuesPath_segment true h
  have htext : isSymbolText (("::" : Text) ++ segment) = true := by rw [isSymbolText, hpath, Bool.or_true]
  have hatoms : (("::" : Text) ++ segment).all isAtomChar = true := by
    rw [List.all_append, all_isAtomChar_segment h]
    simp [hcolon]
  change (List.all _ _ && isSymbolText _ && _) = true
  rw [hatoms, htext]
  rfl

/-! ## Writing ascriptions -/

lemma toForms_identifiers (hosts : List Text) :
    Node.toForms (hosts.map Node.identifier) = .ok (hosts.map nameForm) := by
  induction hosts with
  | nil => rfl
  | cons host rest ih =>
    rw [List.map_cons, Node.toForms, Node.toForm, ih]
    rfl

lemma identifierNames?_identifiers (hosts : List Text) :
    identifierNames? (hosts.map Node.identifier) = some hosts := by
  induction hosts with
  | nil => rfl
  | cons host rest ih =>
    rw [List.map_cons, identifierNames?, ih]
    rfl

/-- An ascription of names is written as the names joined by `::`. -/
lemma toForm_typeNames (hosts : List Text) (h : 2 ≤ hosts.length) (top : Bool) :
    (Node.ascription (hosts.map .identifier)).toForm top =
      .ok (.symbol (Text.join "::" (hosts.map unescapeSymbol))) := by
  rw [Node.toForm, toForms_identifiers]
  change Except.ok (ascriptionForm _ _) = _
  unfold ascriptionForm ascriptionSymbol?
  rw [identifierNames?_identifiers]
  obtain ⟨first, second, rest, rfl⟩ := exists_cons_cons h
  rfl

lemma toForm_typeName (host : Text) (top : Bool) :
    (Node.ascription [.identifier host]).toForm top = .ok (.symbol ("::" ++ unescapeSymbol host)) := by
  rw [Node.toForm, Node.toForms, Node.toForms, Node.toForm]
  rfl

/-- An ascription of a field of a path is written as the path in front of the name of the type. -/
lemma toForm_typedPath {base : Node} {field s host : Text} (h : JoinsPath (.dotAccess base field) s) (top : Bool) :
    (Node.ascription [.dotAccess base field, .identifier host]).toForm top =
      .ok (.symbol (s ++ "::" ++ unescapeSymbol host)) := by
  rw [Node.toForm, Node.toForms, Node.toForms, Node.toForms, h.toForm, Node.toForm]
  change Except.ok (ascriptionForm _ [.symbol s, _]) = _
  unfold ascriptionForm ascriptionSymbol?
  rw [identifierNames?, Form.symbol]
  · simp only [hasAscription_of_not_mem h.colon_not_mem, Bool.false_eq_true, if_false]
    rfl
  · exact nofun
  · exact nofun

/-! ## Writing names -/

lemma nameForm_of_ne {name : Text} (h : name ≠ Node.nothingName) : nameForm name = .symbol (unescapeSymbol name) := by
  rw [nameForm, if_neg h]

lemma startsNumber_macroName (rest : Text) : startsNumber ('@' :: rest) = false := by
  have hat : isDigit '@' = false := by decide
  rw [startsNumber, hat]
  rfl

/-- The name of a macro is written as its symbol, which is an `@` with something behind it. -/
lemma exists_macroSymbol {name : Text} (h : isHostName name = true) :
    ∃ rest, rest ≠ [] ∧ NamePair ('@' :: name) ('@' :: rest) ∧ nameForm ('@' :: name) = .symbol ('@' :: rest) := by
  obtain ⟨rest, hrest, hsymbol⟩ := unescapeSymbol_macroName h
  have hne : '@' :: name ≠ Node.nothingName := by
    intro heq
    cases heq
  refine ⟨rest, hrest, ?_, ?_⟩
  · rw [← hsymbol]
    exact namePair_append (.inr rfl) h
  · rw [nameForm_of_ne hne, hsymbol]

end Bilisp
