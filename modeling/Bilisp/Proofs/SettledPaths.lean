import Bilisp.Proofs.SettledArguments

/-!
# Fields and types that settle

A node and the node that its text is read as need not be equal, but they agree on what the form of a compound
node asks of its parts (`Node.Alike`). So a field and an ascription are written with one symbol if and only if
what they are read as is.
-/

namespace Bilisp

/-! ## Nodes that are alike -/

/-- Whether a node agrees with another one, as far as the form of a node with the other one as a part depends on
it: paths, integers, vectors and calls of a name with two arguments are recognized in parts. -/
structure Node.Alike (n m : Node) : Prop where
  path : m.isPath = true → m = n
  int : ∀ value, m = .literal (.number (.int value)) → m = n
  vector : ∀ items, m = .vector items → ∃ others, n = .vector others
  entry : ∀ name key value, m = .call (.identifier name) [key, value] →
    ∃ key' value', n = .call (.identifier name) [key', value']

/-- Whether what a node is read as again, at a place outside macro calls, is spelled by the form that was
written and agrees with the node. -/
def Node.Reappears (top : Bool) (n : Node) (f : Form) : Prop :=
  ∃ m, Spells (.plain top) m f.reread ∧ n.Alike m

lemma alike_refl (n : Node) : n.Alike n :=
  ⟨fun _ => rfl, fun _ _ => rfl, fun items h => ⟨items, h⟩, fun _ key value h => ⟨key, value, h⟩⟩

/-- Whether the form of a node depends on whether this node is one of its parts. -/
def Node.isRecognized : Node → Bool
  | .identifier _ | .dotAccess _ _ | .literal (.number (.int _)) | .vector _ | .call (.identifier _) [_, _] => true
  | _ => false

/-- Nothing is asked of a node that stands for a node that is not recognized. -/
lemma alike_of_not_recognized {n m : Node} (h : m.isRecognized = false) : n.Alike m where
  path hpath := by
    cases m with
    | identifier | dotAccess => cases h
    | _ => cases hpath
  int value hm := by
    subst hm
    cases h
  vector items hm := by
    subst hm
    cases h
  entry name key value hm := by
    subst hm
    cases h

lemma Node.Alike.identifier {n : Node} {name : Text} (h : n.Alike (.identifier name)) : n = .identifier name :=
  (h.path rfl).symm

lemma Node.Alike.dotAccess {base other : Node} (h : base.Alike other) (field : Text) :
    (Node.dotAccess base field).Alike (.dotAccess other field) where
  path hpath := by rw [h.path hpath]
  int := nofun
  vector := nofun
  entry := nofun

/-- Parts that appear again give pairs that spell the forms of the parts. -/
lemma exists_alikePairs {top : Bool} {nodes : List Node} {forms : List Form}
    (h : List.Forall₂ (Node.Reappears top) nodes forms) :
    ∃ pairs : List (Node × Form), pairs.map Prod.snd = forms.map Form.reread ∧
      List.Forall₂ Node.Alike nodes (pairs.map Prod.fst) ∧ ∀ q ∈ pairs, Spells (.plain top) q.1 q.2 := by
  induction h with
  | nil => exact ⟨[], rfl, .nil, fun q hq => absurd hq List.not_mem_nil⟩
  | @cons n f _ _ hn hrest ih =>
    obtain ⟨m, hm, halike⟩ := hn
    obtain ⟨pairs, hpairs, halikes, hspells⟩ := ih
    refine ⟨(m, f.reread) :: pairs, by rw [List.map_cons, hpairs, List.map_cons], .cons halike halikes, ?_⟩
    exact List.forall_mem_cons.2 ⟨hm, hspells⟩

/-- The pairs of parts that appear again are as many as the parts. -/
lemma length_alikePairs {nodes : List Node} {pairs : List (Node × Form)}
    (h : List.Forall₂ Node.Alike nodes (pairs.map Prod.fst)) : nodes.length = pairs.length := by
  rw [h.length_eq, List.length_map]

/-! ## Symbols -/

lemma not_mem_literalNames_of_mem {s : Text} (h : '.' ∈ s ∨ ':' ∈ s) : s ∉ literalNames := by
  have hliterals : ∀ name ∈ literalNames, '.' ∉ name ∧ ':' ∉ name := by decide
  intro hmem
  obtain ⟨hpoint, hcolon⟩ := hliterals s hmem
  exact h.elim hpoint hcolon

lemma mem_of_hasAscription {s : Text} (h : hasAscription s = true) : ':' ∈ s := by
  by_contra hmem
  rw [hasAscription_of_not_mem hmem] at h
  cases h

lemma NamePair.isOperator_segment {host segment : Text} (h : NamePair host segment)
    (hop : isOperator host = false) : isOperator segment = false := by
  by_contra hsegment
  have hoperator : isOperator segment = true := by simpa using hsegment
  rw [h.eq_of_isOperator hoperator, hop] at hoperator
  cases hoperator

lemma PathPair.isPath {n : Node} {s : Text} (h : PathPair n s) : n.isPath = true := by
  induction h with
  | name => rfl
  | field hbase hpair hoperator ih => exact ih

/-- Only a symbol is read again as a symbol. -/
lemma eq_symbol_of_reread {f : Form} {s : Text} {span : Option Span} (h : f.reread = .atom (.symbol s) span) :
    f = .atom (.symbol s) span := by
  match f with
  | .compound shape elements place => cases h
  | .atom (.symbol name) place =>
    rw [Form.reread, Atom.reread] at h
    by_cases hname : name ∈ literalNames
    · simp only [literalNames, List.mem_cons, List.not_mem_nil, or_false] at hname
      rcases hname with rfl | rfl | rfl <;> cases h
    · rwa [ofName_of_not_mem hname] at h
  | .atom .nil _ => cases h
  | .atom (.boolean _) _ => cases h
  | .atom (.number _) _ => cases h
  | .atom (.string _) _ => cases h
  | .atom (.character _) _ => cases h
  | .atom (.keyword _) _ => cases h

lemma IsSingleName.start {name : Text} (h : IsSingleName name)
    (hsegment : isSegment (unescapeSymbol name) = true) : startsNumber (unescapeSymbol name) = false :=
  startsNumber_of_isSymbolToken (continuesPath_segment true hsegment) h.1.1

lemma IsSingleName.isPathText {name : Text} (h : IsSingleName name)
    (hsegment : isSegment (unescapeSymbol name) = true) : IsPathText (unescapeSymbol name) :=
  ⟨all_isAtomChar_segment hsegment, continuesPath_segment true hsegment, h.start hsegment⟩

/-- A form of an ascription that is a symbol has `::` in it. -/
lemma hasAscription_of_ascriptionSymbol? {operands : List Node} {forms : List Form} {f : Form}
    (h : ascriptionSymbol? operands forms = some f) : ∃ s, f = .symbol s ∧ hasAscription s = true := by
  unfold ascriptionSymbol? at h
  split at h
  · cases h
  · cases h
    exact ⟨_, rfl, rfl⟩
  next names hnil hsingle _ =>
    cases h
    match names with
    | [] => exact absurd rfl hnil
    | [name] => exact absurd rfl (hsingle name)
    | first :: second :: rest =>
      rw [List.map_cons, List.map_cons, join_cons_cons]
      exact ⟨_, rfl, hasAscription_append _ _⟩
  · split at h
    next name span rest =>
      split at h
      · cases h
      · cases h
        rw [List.append_assoc]
        exact ⟨_, rfl, hasAscription_append _ _⟩
    · cases h

/-- Only names, fields and ascriptions are written as symbols. -/
lemma symbol_shape {n : Node} {s : Text} {span : Option Span} (hnormal : n.Normal (.plain false))
    (hf : n.toForm false = .ok (.atom (.symbol s) span)) :
    (∃ name, n = .identifier name) ∨ (∃ base field, n = .dotAccess base field) ∨
      ∃ operands, n = .ascription operands := by
  obtain ⟨-, forms, -, heq⟩ := formAt_eq_ok.1 (show n.formAt (.plain false) = _ from hf)
  change n.assemblePlain false forms = _ at heq
  cases hnormal with
  | identifier => exact .inl ⟨_, rfl⟩
  | dotAccess => exact .inr (.inl ⟨_, _, rfl⟩)
  | ascription => exact .inr (.inr ⟨_, rfl⟩)
  | @literal value => cases value <;> cases heq
  | @quote value => cases value <;> cases heq
  | @call callee args =>
    rw [Node.assemblePlain] at heq
    split at heq
    · cases heq
    · rw [Node.callForm] at heq
      split at heq <;> cases heq
  | @block body hbody hlength =>
    obtain ⟨first, second, rest, rfl⟩ := exists_cons_cons hlength
    cases heq
  | @listing kind parts hparts hne =>
    cases kind with
    | tuple =>
      cases parts <;> cases heq
    | _ => cases heq
  | range hparts hlength =>
    rcases hlength with hlength | hlength
    · obtain ⟨start, stop, rfl⟩ := List.length_eq_two.1 hlength
      cases stop <;> cases heq
    · obtain ⟨start, step, stop, rfl⟩ := List.length_eq_three.1 hlength
      cases step <;> cases heq
  | _ => cases heq

/-! ## Fields -/

/-- Only a list that a symbol leads is read again as one. -/
lemma exists_list_of_reread {f : Form} {s : Text} {place span : Option Span} {forms : List Form}
    (h : f.reread = .compound .list (.atom (.symbol s) place :: forms) span) :
    ∃ rest, f = .compound .list (.atom (.symbol s) place :: rest) span ∧ rest.map Form.reread = forms := by
  cases f with
  | atom value span => cases h
  | compound shape elements span' =>
    rw [Form.reread, rereadAll_eq_map] at h
    obtain ⟨rfl, helements, rfl⟩ := Form.compound.inj h
    obtain ⟨head, rest, rfl, hhead, hrest⟩ := List.map_eq_cons_iff.1 helements
    exact ⟨rest, by rw [eq_symbol_of_reread hhead], hrest⟩

/-- Only a list of fields is read again as one. -/
lemma endsPath_of_reread {f : Form} (h : f.reread.EndsPath) : f.EndsPath := by
  obtain ⟨place, inner, last, place', span, heq⟩ := h
  obtain ⟨rest, rfl, hrest⟩ := exists_list_of_reread heq
  obtain ⟨inner', rest, rfl, -, hrest⟩ := List.map_eq_cons_iff.1 hrest
  obtain ⟨last', rest, rfl, hlast, hrest⟩ := List.map_eq_cons_iff.1 hrest
  rw [List.map_eq_nil_iff.1 hrest, eq_symbol_of_reread hlast]
  exact ⟨place, inner', last, place', span, rfl⟩

/-- A field joins a symbol, joins the symbol at the end of a list of fields, or stands in a list with the form.
In the last case it stands so with what the form is read again as, too. -/
lemma fieldForm_cases (f : Form) (segment : Text) :
    (∃ s span, f = .atom (.symbol s) span ∧ hasAscription s = false ∧
      fieldForm f segment = .symbol (s ++ "." ++ segment)) ∨
    (∃ place inner last place' span,
      f = .compound .list [.atom (.symbol ".") place, inner, .atom (.symbol last) place'] span ∧
      fieldForm f segment = .list [.atom (.symbol ".") place, inner, .symbol (last ++ "." ++ segment)]) ∨
    (fieldForm f segment = .headed "." [f, .symbol segment] ∧
      fieldForm f.reread segment = .headed "." [f.reread, .symbol segment]) := by
  by_cases hsymbol : ∀ s span, f = .atom (.symbol s) span → hasAscription s = true
  · by_cases hpath : f.EndsPath
    · obtain ⟨place, inner, last, place', span, rfl⟩ := hpath
      exact .inr (.inl ⟨place, inner, last, place', span, rfl, rfl⟩)
    · have hreread : ∀ s span, f.reread = .atom (.symbol s) span → hasAscription s = true := fun s span h =>
        hsymbol s span (eq_symbol_of_reread h)
      exact .inr (.inr ⟨fieldForm_of_not_endsPath hsymbol hpath segment,
        fieldForm_of_not_endsPath hreread (fun h => hpath (endsPath_of_reread h)) segment⟩)
  · push Not at hsymbol
    obtain ⟨s, span, rfl, hmark⟩ := hsymbol
    have hmark' : hasAscription s = false := by simpa using hmark
    refine .inl ⟨s, span, rfl, hmark', ?_⟩
    rw [fieldForm, hmark', if_neg Bool.false_ne_true]

/-- A settled field of a path is a path. -/
lemma pathPair_dotAccess {base : Node} {field s : Text} (hfield : Node.FieldSettles base field) (hbase : PathPair base s) :
    PathPair (.dotAccess base field) (s ++ '.' :: unescapeSymbol field) := by
  refine .field hbase hfield.pair ?_
  rintro ⟨hs, hsegment⟩
  have hname := hbase.eq_identifier hs
  refine hfield.operator s hname ⟨hs, ?_⟩
  rwa [← hfield.pair.eq_of_isOperator hsegment]

/-- A field is written as a symbol if it joins one. -/
lemma exists_symbol_of_fieldForm {f : Form} {segment s : Text} {span : Option Span}
    (h : fieldForm f segment = .atom (.symbol s) span) :
    ∃ t place, f = .atom (.symbol t) place ∧ hasAscription t = false ∧ t ++ '.' :: segment = s := by
  rcases fieldForm_cases f segment with ⟨t, place, rfl, hmark, hform⟩ | ⟨_, _, _, _, _, -, hform⟩ | ⟨hform, -⟩
  · rw [hform, List.append_assoc] at h
    cases h
    exact ⟨t, place, rfl, hmark, rfl⟩
  · rw [hform] at h
    cases h
  · rw [hform] at h
    cases h

lemma hasAscription_of_ascriptionForm {operands : List Node} {fs : List Form} {s : Text} {span : Option Span}
    (h : ascriptionForm operands fs = .atom (.symbol s) span) : hasAscription s = true := by
  rw [ascriptionForm] at h
  cases hsymbol : ascriptionSymbol? operands fs with
  | none =>
    rw [hsymbol] at h
    cases h
  | some f =>
    obtain ⟨t, rfl, ht⟩ := hasAscription_of_ascriptionSymbol? hsymbol
    rw [hsymbol] at h
    cases h
    exact ht

/-- A settled node that is written as a symbol without `::` is a path that the symbol joins. -/
lemma exists_pathPair {n : Node} {s : Text} {span : Option Span} (hnormal : n.Normal (.plain false))
    (hsettled : n.Settled (.plain false))
    (hsegment : ∀ name, n = .identifier name → isSegment (unescapeSymbol name) = true)
    (hf : n.toForm false = .ok (.atom (.symbol s) span)) (hmark : hasAscription s = false) :
    PathPair n s ∧ startsNumber s = false := by
  obtain ⟨hsettles, hvisits⟩ := hsettled
  rcases symbol_shape hnormal hf with ⟨name, rfl⟩ | ⟨base, field, rfl⟩ | ⟨operands, rfl⟩
  · have hname : IsSingleName name := hsettles
    have hne : name ≠ Node.nothingName := by
      rintro rfl
      cases hf
    rw [Node.toForm, nameForm_of_ne hne] at hf
    cases hf
    exact ⟨.name (hname.pair (hsegment name rfl)) hne, hname.start (hsegment name rfl)⟩
  · have hfield : Node.FieldSettles base field := hsettles
    rw [Node.toForm] at hf
    simp only [bind_eq_ok, pure_eq_ok] at hf
    obtain ⟨g, hg, heq⟩ := hf
    obtain ⟨t, place, rfl, hmark', rfl⟩ := exists_symbol_of_fieldForm heq
    have hbase : base.Normal (.plain false) :=
      (normal_visits hnormal false).2 (.plain false, base) List.mem_cons_self
    have hbase' : base.Settled (.plain false) := hvisits (.plain false, base) List.mem_cons_self
    obtain ⟨hpath, hstart⟩ := exists_pathPair hbase hbase' hfield.segment hg hmark'
    exact ⟨pathPair_dotAccess hfield hpath, (startsNumber_append hpath.ne_nil (by decide) _).trans hstart⟩
  · rw [Node.toForm] at hf
    simp only [bind_eq_ok, pure_eq_ok] at hf
    obtain ⟨fs, -, heq⟩ := hf
    rw [hasAscription_of_ascriptionForm heq] at hmark
    cases hmark
termination_by sizeOf n

/-- A list of a point and two forms that spells a node ends with a symbol that a field can follow. -/
lemma spells_endsPath {n : Node} {inner f : Form} {place span : Option Span}
    (h : Spells (.plain false) n (.compound .list [.atom (.symbol ".") place, inner, f] span)) :
    ∃ last, f = .symbol last ∧ place = none ∧ span = none ∧ IsPathText last := by
  obtain ⟨base, name, rfl⟩ := h.point_cases
  rcases h.dotAccess_cases with ⟨s, heq⟩ | ⟨inner', last, heq, hatoms, hpath⟩
  · cases heq
  · cases heq
    obtain ⟨-, -, -, ⟨htoken, -⟩, -⟩ := h.converts.readable
    have hstart := startsNumber_of_isSymbolToken hpath (lexemes?_eq_symbol_iff.1 htoken)
    exact ⟨last, rfl, rfl, rfl, hatoms, hpath, hstart⟩

/-- A settled field of a base that appears again appears again. -/
lemma reappears_dotAccess {top : Bool} {base : Node} {field : Text} {g : Form}
    (hnormal : base.Normal (.plain false)) (hsettled : base.Settled (.plain false))
    (hfield : Node.FieldSettles base field) (hg : base.toForm false = .ok g) (hbase : base.Reappears false g) :
    (Node.dotAccess base field).Reappears top (fieldForm g (unescapeSymbol field)) := by
  obtain ⟨m, hm, halike⟩ := hbase
  rcases fieldForm_cases g (unescapeSymbol field) with ⟨s, span, rfl, hmark, hform⟩ |
    ⟨place, inner, last, place', span, rfl, hform⟩ | ⟨hform, hform'⟩
  · obtain ⟨hpath, hstart⟩ := exists_pathPair hnormal hsettled hfield.segment hg hmark
    have hpath' := pathPair_dotAccess hfield hpath
    have hpoint : isDigit '.' = false := by decide
    have hstart' := (startsNumber_append hpath.ne_nil hpoint (unescapeSymbol field)).trans hstart
    have hmem : '.' ∈ s ++ '.' :: unescapeSymbol field := by simp
    have hreread := reread_symbol (not_mem_literalNames_of_mem (.inl hmem))
    rw [hform, List.append_assoc]
    refine ⟨_, ?_, alike_refl _⟩
    change Spells _ _ (Form.symbol (s ++ '.' :: unescapeSymbol field)).reread
    rw [hreread]
    exact .path hpath' (readable_of_mem (hpath'.isSymbolToken hstart') (.inl hmem))
  · -- The field goes on with the symbol at the end of the list that spells what the base is read as.
    obtain ⟨t, ht, rfl, rfl, hpath⟩ := spells_endsPath hm
    cases eq_symbol_of_reread ht
    have hbase : Spells (.plain false) m (.headed "." [inner.reread, .symbol last]) := by
      rw [← ht]
      exact hm
    have hjoined := hpath.append (all_isAtomChar_segment hfield.pair.isSegment)
      (continuesPath_segment true hfield.pair.isSegment) (.inl rfl)
    rw [← List.append_assoc] at hjoined
    have hmem : '.' ∈ last ++ "." ++ unescapeSymbol field := by simp
    have hlast := reread_symbol (not_mem_literalNames_of_mem (.inl hmem))
    rw [hform]
    refine ⟨_, ?_, halike.dotAccess field⟩
    change Spells _ _ (Form.headed "." [inner, .symbol (last ++ "." ++ unescapeSymbol field)]).reread
    rw [reread_headed (by decide), List.map_cons, List.map_cons, List.map_nil, hlast]
    exact .fields hbase hfield.pair (readable_of_mem hjoined.isSymbolToken (.inl hmem))
  · obtain ⟨htoken, hliteral⟩ := hfield.alone g hg hform
    rw [hform]
    refine ⟨_, ?_, halike.dotAccess field⟩
    rw [reread_headed (by decide), List.map_cons, List.map_cons, List.map_nil, reread_symbol hliteral]
    exact .field hm hfield.pair hform' (readable_word ⟨htoken, hliteral⟩)

/-! ## Ascriptions -/

/-- Names always give one symbol. -/
lemma identifierNames?_of_ascriptionSymbol? {operands : List Node} {fs : List Form} (hne : operands ≠ [])
    (hsymbol : ascriptionSymbol? operands fs = none) : identifierNames? operands = none := by
  cases hnames : identifierNames? operands with
  | none => rfl
  | some names =>
    unfold ascriptionSymbol? at hsymbol
    rw [hnames] at hsymbol
    obtain rfl := identifierNames?_eq_some hnames
    match names with
    | [] => exact absurd rfl hne
    | [name] => cases hsymbol
    | _ :: _ :: _ => cases hsymbol

lemma eq_of_alike_identifiers {operands : List Node} {names : List Text}
    (h : List.Forall₂ Node.Alike operands (names.map .identifier)) : operands = names.map .identifier := by
  induction names generalizing operands with
  | nil => exact List.forall₂_nil_right_iff.1 h
  | cons name rest ih =>
    obtain ⟨n, others, hn, hothers, rfl⟩ := List.forall₂_cons_right_iff.1 h
    rw [List.map_cons, hn.identifier, ih hothers]

/-- An ascription that is written as a list is read again as one that is written as a list. -/
lemma ascriptionSymbol?_alike {operands others : List Node} {fs : List Form}
    (h : List.Forall₂ Node.Alike operands others) (hne : operands ≠ [])
    (hsymbol : ascriptionSymbol? operands fs = none) :
    ascriptionSymbol? others (fs.map Form.reread) = none := by
  have hnone := identifierNames?_of_ascriptionSymbol? hne hsymbol
  have hnone' : identifierNames? others = none := by
    cases hnames : identifierNames? others with
    | none => rfl
    | some names =>
      obtain rfl := identifierNames?_eq_some hnames
      rw [eq_of_alike_identifiers h, hnames] at hnone
      cases hnone
  unfold ascriptionSymbol? at hsymbol ⊢
  rw [hnone] at hsymbol
  rw [hnone']
  dsimp only at hsymbol ⊢
  split
  next head type name span rest hforms =>
    obtain ⟨f, fs', rfl, hf, -⟩ := List.map_eq_cons_iff.1 hforms
    obtain ⟨first, _, -, hrest, rfl⟩ := List.forall₂_cons_right_iff.1 h
    obtain ⟨second, _, hsecond, hnil, rfl⟩ := List.forall₂_cons_right_iff.1 hrest
    rw [eq_symbol_of_reread hf, hsecond.identifier, List.forall₂_nil_right_iff.1 hnil] at hsymbol
    exact hsymbol
  next => rfl

section

variable {top : Bool} {fs : List Form} {f : Form}

/-- The symbol that joins settled names spells their ascription. -/
lemma spells_ascriptionNames {names : List Text} (hsettles : Node.AscriptionSettles (names.map .identifier))
    (hnames : ∀ name ∈ names, IsSingleName name) (hf : ascriptionSymbol? (names.map .identifier) fs = some f) :
    Spells (.plain top) (.ascription (names.map .identifier)) f := by
  have hsegments := hsettles.segments names rfl
  have hpair : ∀ name ∈ names, NamePair name (unescapeSymbol name) := fun name hname =>
    (hnames name hname).pair (hsegments name hname)
  obtain ⟨other, hother, hoperator⟩ := hsettles.operators names rfl
  unfold ascriptionSymbol? at hf
  rw [identifierNames?_identifiers] at hf
  match names with
  | [] => cases hf
  | [name] =>
    cases hf
    obtain rfl := List.mem_singleton.1 hother
    exact .typeName (hpair other hother) ((hpair other hother).isOperator_segment hoperator)
  | first :: second :: rest =>
    cases hf
    have htexts : ∀ t ∈ (first :: second :: rest).map unescapeSymbol, IsPathText t :=
      List.forall_mem_map.2 fun name hname => (hnames name hname).isPathText (hsegments name hname)
    have htoken := (isPathText_join (by simp) htexts).isSymbolToken
    have hmem : ':' ∈ Text.join "::" ((first :: second :: rest).map unescapeSymbol) := by
      rw [List.map_cons, List.map_cons, join_cons_cons]
      simp
    have hreadable := readable_of_mem htoken (.inr hmem)
    obtain ⟨pairs, hpairs⟩ : ∃ pairs, pairs =
        (first :: second :: rest).map fun name => (name, unescapeSymbol name) := ⟨_, rfl⟩
    have hnodes : pairs.map (fun q => Node.identifier q.1) = (first :: second :: rest).map .identifier := by
      rw [hpairs, List.map_map]
      rfl
    have htexts' : pairs.map Prod.snd = (first :: second :: rest).map unescapeSymbol := by
      rw [hpairs, List.map_map]
      rfl
    rw [← htexts'] at hreadable
    change Spells _ _ (.symbol (Text.join "::" ((first :: second :: rest).map unescapeSymbol)))
    rw [← hnodes, ← htexts']
    subst hpairs
    exact .typeNames (List.forall_mem_map.2 hpair) (by simp)
      ⟨_, List.mem_map_of_mem hother, (hpair other hother).isOperator_segment hoperator⟩ hreadable

/-- The symbol of a settled ascription spells it. -/
lemma spells_ascriptionSymbol {operands : List Node} (hsettles : Node.AscriptionSettles operands)
    (hnormal : ∀ n ∈ operands, n.Normal (.plain false)) (hsettled : ∀ n ∈ operands, n.Settled (.plain false))
    (hfs : List.Forall₂ (fun n g => n.toForm false = .ok g) operands fs)
    (hf : ascriptionSymbol? operands fs = some f) : Spells (.plain top) (.ascription operands) f := by
  cases hnames : identifierNames? operands with
  | some names =>
    obtain rfl := identifierNames?_eq_some hnames
    have hsingle : ∀ name ∈ names, IsSingleName name := fun name hname =>
      (hsettled _ (List.mem_map_of_mem hname)).settles
    exact spells_ascriptionNames hsettles hsingle hf
  | none =>
    unfold ascriptionSymbol? at hf
    rw [hnames] at hf
    dsimp only at hf
    split at hf
    next base type name span rest =>
      obtain ⟨hbase, -⟩ := List.forall₂_cons.1 hfs
      have hother : ∀ other, base ≠ .identifier other := by
        rintro other rfl
        cases hnames
      split at hf
      · cases hf
      next hmark =>
        cases hf
        have hmark' : hasAscription name = false := by simpa using hmark
        obtain ⟨hpath, hstart⟩ := exists_pathPair (hnormal base (by simp)) (hsettled base (by simp))
          (fun other heq => absurd heq (hother other)) hbase hmark'
        have hseg := hsettles.typed base type rfl hpath.isPath
        have htype : IsSingleName type := (hsettled (.identifier type) (by simp)).settles
        have hpathText : IsPathText name := ⟨hpath.all_isAtomChar, hpath.continuesPath, hstart⟩
        have htypeText := htype.isPathText hseg
        have hjoined := hpathText.append htypeText.atoms htypeText.path (.inr rfl)
        rw [← List.append_assoc] at hjoined
        have hmem : ':' ∈ name ++ "::" ++ unescapeSymbol type := by simp
        cases hpath with
        | name => exact absurd rfl (hother _)
        | field hbase' hpair hoperator =>
          exact .typedPath (.field hbase' hpair hoperator) (htype.pair hseg)
            (readable_of_mem hjoined.isSymbolToken (.inr hmem))
    next => cases hf

end

/-- A settled ascription of operands that appear again appears again. -/
lemma reappears_ascription {top : Bool} {operands : List Node} {fs : List Form}
    (hsettles : Node.AscriptionSettles operands) (hne : operands ≠ [])
    (hnormal : ∀ n ∈ operands, n.Normal (.plain false)) (hsettled : ∀ n ∈ operands, n.Settled (.plain false))
    (hfs : List.Forall₂ (fun n f => n.toForm false = .ok f) operands fs)
    (hoperands : List.Forall₂ (Node.Reappears false) operands fs) :
    (Node.ascription operands).Reappears top (ascriptionForm operands fs) := by
  rw [ascriptionForm]
  cases hsymbol : ascriptionSymbol? operands fs with
  | some f =>
    refine ⟨_, ?_, alike_refl _⟩
    obtain ⟨s, rfl, hmark⟩ := hasAscription_of_ascriptionSymbol? hsymbol
    rw [Option.getD_some, reread_symbol (not_mem_literalNames_of_mem (.inr (mem_of_hasAscription hmark)))]
    exact spells_ascriptionSymbol hsettles hnormal hsettled hfs hsymbol
  | none =>
    obtain ⟨pairs, hpairs, halike, hspells⟩ := exists_alikePairs hoperands
    have hsymbol' := ascriptionSymbol?_alike halike hne hsymbol
    have hne' : pairs ≠ [] := ne_nil_of_length_eq (length_alikePairs halike).symm hne
    rw [Option.getD_none]
    refine ⟨.ascription (pairs.map Prod.fst), ?_, alike_of_not_recognized rfl⟩
    rw [reread_headed (by decide), ← hpairs]
    rw [← hpairs] at hsymbol'
    exact .ascription hspells hne' hsymbol'

end Bilisp
