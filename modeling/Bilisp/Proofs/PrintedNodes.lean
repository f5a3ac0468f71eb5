import Bilisp.Proofs.Visits

/-!
# Printed nodes are read as what was printed

The forms of nodes put symbols together from names, fields and types. Where all names of a node are identifiers
or operators (`Node.Named`), what is put together is one symbol again, so every form of the node is readable,
whatever the shape of the node.
-/

namespace Bilisp

/-! ## Names and paths -/

/-- Whether a name is an identifier that is not written like a literal, or an operator. -/
def IsNodeName (name : Text) : Prop :=
  (isHostName name = true ∧ name ∉ literalNames) ∨ isPlainOperator name = true

/-- Whether a text is a path that a field or a type can follow. -/
structure IsPathText (s : Text) : Prop where
  atoms : s.all isAtomChar = true
  path : continuesPath true true s = true
  start : startsNumber s = false

namespace IsPathText

variable {s : Text}

lemma ne_nil (h : IsPathText s) : s ≠ [] := by
  rintro rfl
  cases h.path

lemma isSymbolToken (h : IsPathText s) : isSymbolToken s = true :=
  isSymbolToken_of_isPath h.atoms h.path h.start

/-- What goes on as a path behind a path and a separator. -/
lemma append {t separator : Text} (h : IsPathText s) (hatoms : t.all isAtomChar = true)
    (hpath : continuesPath true true t = true) (hseparator : separator = ['.'] ∨ separator = [':', ':']) :
    IsPathText (s ++ (separator ++ t)) := by
  have hmem : separator ∈ separators true := by rcases hseparator with rfl | rfl <;> decide
  refine ⟨?_, ?_, ?_⟩
  · have hmarks : separator.all isAtomChar = true := by rcases hseparator with rfl | rfl <;> decide
    rw [List.all_append, List.all_append, h.atoms, hmarks, hatoms]
    rfl
  · rw [continuesPath_append h.path hmem, hpath]
  · rcases hseparator with rfl | rfl
    · exact (startsNumber_append h.ne_nil (by decide) t).trans h.start
    · exact (startsNumber_append h.ne_nil (by decide) (':' :: t)).trans h.start

end IsPathText

lemma not_mem_literalNames_of_isPlainOperator {name : Text} (h : isPlainOperator name = true) :
    name ∉ literalNames := by
  have hliterals : ∀ other ∈ literalNames, isPlainOperator other = false := by decide
  intro hmem
  rw [hliterals name hmem] at h
  cases h

section

variable {name : Text}

lemma IsNodeName.not_literal (h : IsNodeName name) : name ∉ literalNames := by
  rcases h with h | h
  · exact h.2
  · exact not_mem_literalNames_of_isPlainOperator h

lemma IsNodeName.pair (h : IsNodeName name) :
    NamePair name (unescapeSymbol name) ∧ startsNumber (unescapeSymbol name) = false := by
  obtain ⟨segment, hpair, hstart, -⟩ := exists_segment (h.imp_left And.left)
  rw [hpair.unescape]
  exact ⟨hpair, hstart⟩

lemma IsNodeName.isSegment (h : IsNodeName name) : isSegment (unescapeSymbol name) = true := h.pair.1.isSegment

lemma IsNodeName.isPathText (h : IsNodeName name) : IsPathText (unescapeSymbol name) := by
  obtain ⟨hpair, hstart⟩ := h.pair
  exact ⟨all_isAtomChar_segment hpair.isSegment, continuesPath_segment true hpair.isSegment, hstart⟩

lemma IsNodeName.readable (h : IsNodeName name) : (Atom.symbol (unescapeSymbol name)).Readable := by
  obtain ⟨hpair, hstart⟩ := h.pair
  exact readable_segment hpair hstart h.not_literal

end

/-! ## Named nodes -/

namespace Node

/-- The nodes inside a node. -/
def children : Node → List Node
  | .function name params body => name :: (params ++ [body])
  | .anonymous params body | .lambda params body => params ++ [body]
  | .dotAccess base _ => [base]
  | .macroCall _ args => args
  | .moduleBlock name body => name :: body
  | n => n.parts

/-- Whether a node, apart from the nodes inside it, holds names and literals that can be written. -/
def HasNames : Node → Prop
  | .literal value => ∀ number, value = .number number → number.IsRegular
  | .identifier name => IsNodeName name
  | .dotAccess _ field => IsNodeName field
  | .raw head _ => IsNodeName head
  | .macroCall name _ => ∃ rest, name = '@' :: rest ∧ isHostName rest = true
  | _ => True

/-- The nodes of any shape in which all names and literals can be written. -/
inductive Named : Node → Prop
  | mk {n : Node} (hnames : n.HasNames) (hchildren : ∀ m ∈ n.children, Named m) : Named n

lemma Named.names {n : Node} (h : n.Named) : n.HasNames := by
  cases h with
  | mk hnames hchildren => exact hnames

lemma Named.children {n : Node} (h : n.Named) : ∀ m ∈ n.children, m.Named := by
  cases h with
  | mk hnames hchildren => exact hchildren

end Node

/-! ## What visits keep -/

section

variable {P : Node → Prop} (hP : ∀ {n : Node}, P n → ∀ m ∈ n.children, P m)

include hP

lemma forall_literalParts {n : Node} (h : P n) : ∀ m ∈ n.literalParts, P m := by
  have hchildren := hP h
  cases n with
  | call callee args => exact fun m hm => hchildren m (List.mem_cons_of_mem _ hm)
  | vector items => exact hchildren
  | _ => exact fun m hm => absurd hm List.not_mem_nil

lemma forall_callParts {callee : Node} {args : List Node} (hcallee : P callee) (hargs : ∀ n ∈ args, P n) :
    ∀ m ∈ Node.callParts callee args, P m := by
  intro m hm
  rw [Node.callParts] at hm
  split at hm
  · obtain ⟨n, hn, hmn⟩ := List.mem_flatMap.1 hm
    exact forall_literalParts hP (hargs n hn) m hmn
  · rcases List.mem_cons.1 hm with rfl | hm
    · exact hcallee
    · exact hargs m hm

lemma forall_bindingParts {n : Node} (h : P n) : ∀ m ∈ n.bindingParts, P m := by
  have hchildren := hP h
  cases n with
  | assignment target value => exact hchildren
  | identifier name =>
    intro m hm
    obtain rfl : m = .identifier name := by simpa [Node.bindingParts] using hm
    exact h
  | _ => exact fun m hm => absurd hm List.not_mem_nil

lemma forall_plainParts {n : Node} (h : P n) (hmacroCall : ∀ name args, n ≠ .macroCall name args)
    (hmodule : ∀ name body, n ≠ .moduleBlock name body) : ∀ m ∈ n.plainParts, P m := by
  have hchildren := hP h
  intro m hm
  cases n with
  | quote value =>
    cases value with
    | identifier name => exact absurd hm List.not_mem_nil
    | _ => exact hchildren m hm
  | call callee args =>
    rw [Node.plainParts] at hm
    split at hm
    · exact absurd hm List.not_mem_nil
    · obtain ⟨hcallee, hargs⟩ := List.forall_mem_cons.1 hchildren
      exact forall_callParts hP hcallee hargs m hm
  | comparison operands =>
    refine hchildren m ?_
    unfold Node.plainParts at hm
    split at hm
    all_goals grind [Node.parts, Node.children]
  | letBlock bindings body =>
    obtain ⟨hbody, hbindings⟩ := List.forall_mem_cons.1 hchildren
    rw [Node.plainParts, List.mem_append, List.mem_singleton] at hm
    rcases hm with hm | rfl
    · obtain ⟨n, hn, hmn⟩ := List.mem_flatMap.1 hm
      exact forall_bindingParts hP (hbindings n hn) m hmn
    · exact hbody
  | macroCall name args => exact absurd rfl (hmacroCall name args)
  | moduleBlock name body => exact absurd rfl (hmodule name body)
  | _ => exact hchildren m hm

lemma forall_quotedParts {n : Node} (h : P n) : ∀ m ∈ n.quotedParts, P m := by
  have hchildren := hP h
  intro m hm
  cases n with
  | call callee args =>
    obtain ⟨hcallee, hargs⟩ := List.forall_mem_cons.1 hchildren
    exact forall_callParts hP hcallee hargs m hm
  | function name params body =>
    obtain ⟨hname, hothers⟩ := List.forall_mem_cons.1 hchildren
    obtain ⟨hparams, hbody⟩ := List.forall_mem_append.1 hothers
    rcases List.mem_append.1 hm with hm | hm
    · exact forall_callParts hP hname hparams m hm
    · exact hbody m hm
  | _ => exact hchildren m hm

/-- What holds of the nodes inside a node with the node holds of all nodes that a conversion visits. -/
lemma forall_visits {n : Node} (h : P n) (p : Place) : ∀ v ∈ n.visits p, P v.2 := by
  have hmap {p : Place} {nodes : List Node} (h : ∀ n ∈ nodes, P n) : ∀ v ∈ nodes.map (Prod.mk p), P v.2 :=
    List.forall_mem_map.2 h
  have hchildren := hP h
  cases p with
  | plain top =>
    cases n with
    | macroCall name args => exact hmap hchildren
    | moduleBlock name body =>
      obtain ⟨hname, hbody⟩ := List.forall_mem_cons.1 hchildren
      exact List.forall_mem_cons.2 ⟨hname, hmap hbody⟩
    | _ => exact hmap (forall_plainParts hP h nofun nofun)
  | quoted =>
    cases n with
    | quote value => exact fun v hv => List.mem_singleton.1 hv ▸ hchildren value List.mem_cons_self
    | _ => exact hmap (forall_quotedParts hP h)

end

/-- A conversion of a named node visits named nodes only. -/
lemma named_visits {n : Node} (h : n.Named) (p : Place) : ∀ v ∈ n.visits p, v.2.Named :=
  forall_visits Node.Named.children h p

/-! ## Forms that fields and types can follow -/

/-- Whether a form makes a form that can be written again with a field or a type behind it. -/
def Form.Joinable : Form → Prop
  | .atom (.symbol name) _ => hasAscription name = true ∨ IsPathText name
  | .compound .list [.atom (.symbol head) _, _, .atom (.symbol last) _] _ => head = "." → IsPathText last
  | _ => True

/-- What is true of the form of a named node: it is readable and, outside macro calls, also a form that fields
and types can follow. -/
def Form.PrintableAt : Place → Form → Prop
  | .plain _, f => f.Readable ∧ f.Joinable
  | .quoted, f => f.Readable

lemma Form.PrintableAt.readable {p : Place} {f : Form} (h : f.PrintableAt p) : f.Readable := by
  cases p with
  | plain top => exact h.1
  | quoted => exact h

lemma joinable_list {f : Form} (hf : ∀ place, f ≠ .atom (.symbol ".") place) (forms : List Form) :
    (Form.list (f :: forms)).Joinable := by
  unfold Form.Joinable
  split
  next heq => cases heq
  next head place inner last place' span heq =>
    rintro rfl
    exact absurd (List.cons.inj (Form.compound.inj heq).2.1).1 (hf place)
  next => trivial

/-- The form of a node is not the point that leads a field. -/
lemma Form.Joinable.ne_point {f : Form} (h : f.Joinable) (place : Option Span) :
    f ≠ .atom (.symbol ".") place := by
  rintro rfl
  rcases h with h | h
  · cases h
  · cases h.path

section

variable {forms : List Form}

lemma readable_list (h : ∀ f ∈ forms, f.Readable) : (Form.list forms).Readable :=
  ⟨nofun, Form.allReadable_iff.2 h⟩

lemma readable_vector (h : ∀ f ∈ forms, f.Readable) : (Form.vector forms).Readable :=
  ⟨nofun, Form.allReadable_iff.2 h⟩

lemma readable_word {head : Text} (h : isSymbolToken head = true ∧ head ∉ literalNames) :
    (Atom.symbol head).Readable := by
  obtain ⟨htoken, hliteral⟩ := h
  simp only [literalNames, List.mem_cons, List.not_mem_nil, or_false, not_or] at hliteral
  exact ⟨lexemes?_eq_symbol_iff.2 htoken, hliteral⟩

/-- A list behind a word is readable if its other elements are. -/
lemma readable_behind {head : Text} (hhead : isSymbolToken head = true ∧ head ∉ literalNames)
    (h : ∀ f ∈ forms, f.Readable) : (Form.headed head forms).Readable :=
  readable_list (List.forall_mem_cons.2 ⟨readable_word hhead, h⟩)

lemma printable_behind {top : Bool} {head : Text} (hhead : isSymbolToken head = true ∧ head ∉ literalNames)
    (hpoint : head ≠ ".".toList) (h : ∀ f ∈ forms, f.Readable) :
    (Form.headed head forms).PrintableAt (.plain top) := by
  refine ⟨readable_behind hhead h, joinable_list (fun place heq => hpoint ?_) forms⟩
  exact Atom.symbol.inj (Form.atom.inj heq).1

end

/-! ## Names, fields and types -/

lemma printable_symbol {top : Bool} {s : Text} (hpath : IsPathText s) (h : (Atom.symbol s).Readable) :
    (Form.symbol s).PrintableAt (.plain top) := ⟨h, .inr hpath⟩

lemma printable_nameForm {name : Text} (h : IsNodeName name) (top : Bool) :
    (nameForm name).PrintableAt (.plain top) := by
  rw [nameForm]
  split
  · exact ⟨trivial, trivial⟩
  · exact printable_symbol h.isPathText h.readable

lemma printable_keywordForm {name : Text} (h : IsNodeName name) (top : Bool) :
    (keywordForm name).PrintableAt (.plain top) := by
  have hspells : Spells (.plain top) (.quote (.identifier name)) (.atom (.keyword (unescapeSymbol name)) none) :=
    spells_keyword h.pair.1
  have hform : keywordForm name = .atom (.keyword (unescapeSymbol name)) none :=
    Except.ok.inj hspells.converts.written
  rw [hform]
  exact ⟨hspells.converts.readable, trivial⟩

lemma printable_macroName {name : Text} (h : isHostName name = true) (top : Bool) :
    (nameForm ('@' :: name)).PrintableAt (.plain top) := by
  obtain ⟨rest, -, hpair, hform⟩ := exists_macroSymbol h
  have hpath : IsPathText ('@' :: rest) :=
    ⟨all_isAtomChar_segment hpair.isSegment, continuesPath_segment true hpair.isSegment, startsNumber_macroName rest⟩
  rw [hform]
  exact printable_symbol hpath ⟨lexemes?_eq_symbol_iff.2 hpath.isSymbolToken, by simp, by simp, by simp⟩

lemma IsPathText.printable_append {s t : Text} (hs : IsPathText s) (ht : IsPathText t) {separator : Text}
    (hseparator : separator = ['.'] ∨ separator = [':', ':']) (top : Bool) :
    (Form.symbol (s ++ (separator ++ t))).PrintableAt (.plain top) := by
  have hpath := hs.append ht.atoms ht.path hseparator
  refine printable_symbol hpath (readable_of_mem hpath.isSymbolToken ?_)
  rcases hseparator with rfl | rfl
  · exact .inl (by simp)
  · exact .inr (by simp)

/-- A field behind a form, in the symbol of the form or in a list. -/
lemma printable_fieldForm {top : Bool} {base : Form} {field : Text} (hbase : base.PrintableAt (.plain top))
    (hfield : IsNodeName field) : (fieldForm base (unescapeSymbol field)).PrintableAt (.plain top) := by
  have hsymbol : (Form.symbol (unescapeSymbol field)).Readable := hfield.readable
  have hlist : (Form.headed "." [base, .symbol (unescapeSymbol field)]).PrintableAt (.plain top) :=
    ⟨readable_behind (by decide) (by simpa using ⟨hbase.readable, hsymbol⟩), fun _ => hfield.isPathText⟩
  unfold fieldForm
  split
  next name span =>
    split
    next => exact hlist
    next hmark =>
      obtain ⟨-, hmark' | hpath⟩ := hbase
      · exact absurd hmark' hmark
      · rw [List.append_assoc]
        exact hpath.printable_append hfield.isPathText (.inl rfl) top
  next head place inner last place' span =>
    split
    next hhead =>
      obtain ⟨⟨-, hreadable⟩, hpath⟩ := hbase
      obtain ⟨hpoint, hinner, -⟩ := hreadable
      have hjoined := (hpath hhead).printable_append hfield.isPathText (.inl rfl) top
      rw [List.append_assoc]
      refine ⟨⟨nofun, hpoint, hinner, hjoined.readable, trivial⟩, fun _ => ?_⟩
      exact (hpath hhead).append hfield.isPathText.atoms hfield.isPathText.path (.inl rfl)
    next => exact hlist
  next => exact hlist

lemma isPathText_join {texts : List Text} (hne : texts ≠ []) (h : ∀ t ∈ texts, IsPathText t) :
    IsPathText (Text.join "::" texts) := by
  induction texts with
  | nil => exact absurd rfl hne
  | cons t rest ih =>
    have ht := h t List.mem_cons_self
    cases rest with
    | nil => rwa [join_singleton]
    | cons u rest =>
      have hrest := ih (List.cons_ne_nil _ _) fun v hv => h v (List.mem_cons_of_mem _ hv)
      rw [join_cons_cons]
      exact ht.append hrest.atoms hrest.path (.inr rfl)

/-- The symbol of an ascription, if it has one. -/
lemma printable_ascriptionSymbol {top : Bool} {operands : List Node} {forms : List Form} {f : Form}
    (hoperands : ∀ n ∈ operands, n.Named) (hforms : ∀ g ∈ forms, g.PrintableAt (.plain false))
    (hf : ascriptionSymbol? operands forms = some f) : f.PrintableAt (.plain top) := by
  unfold ascriptionSymbol? at hf
  cases hnames : identifierNames? operands with
  | some names =>
    obtain rfl := identifierNames?_eq_some hnames
    have hnamed : ∀ name ∈ names, IsNodeName name := fun name hname =>
      (hoperands _ (List.mem_map_of_mem hname)).names
    rw [hnames] at hf
    match names with
    | [] => cases hf
    | [name] =>
      have hname := hnamed name List.mem_cons_self
      cases hf
      have htoken := isSymbolToken_typeName hname.isSegment
      exact ⟨⟨lexemes?_eq_symbol_iff.2 htoken, nofun, nofun, nofun⟩, .inl rfl⟩
    | name :: other :: rest =>
      cases hf
      have hpaths : ∀ t ∈ (name :: other :: rest).map unescapeSymbol, IsPathText t :=
        List.forall_mem_map.2 fun name hname => (hnamed name hname).isPathText
      have hpath := isPathText_join (List.cons_ne_nil _ _) hpaths
      refine printable_symbol hpath (readable_of_mem hpath.isSymbolToken (.inr ?_))
      rw [List.map_cons, List.map_cons, join_cons_cons]
      simp
  | none =>
    rw [hnames] at hf
    dsimp only at hf
    split at hf
    next first type name span others =>
      split at hf
      next => cases hf
      next hmark =>
        cases hf
        have htype : IsNodeName type := (hoperands (.identifier type) (by simp)).names
        obtain ⟨-, hmark' | hpath⟩ := hforms _ List.mem_cons_self
        · exact absurd hmark' hmark
        · rw [List.append_assoc]
          exact hpath.printable_append htype.isPathText (.inr rfl) top
    next => cases hf

lemma printable_ascriptionForm {top : Bool} {operands : List Node} {forms : List Form}
    (hoperands : ∀ n ∈ operands, n.Named) (hforms : ∀ g ∈ forms, g.PrintableAt (.plain false)) :
    (ascriptionForm operands forms).PrintableAt (.plain top) := by
  rw [ascriptionForm]
  cases hf : ascriptionSymbol? operands forms with
  | none => exact printable_behind (by decide) (by decide) fun g hg => (hforms g hg).readable
  | some f => exact printable_ascriptionSymbol hoperands hforms hf

/-! ## One step -/

lemma forall_headD {P : Form → Prop} (hnil : P .nil) {forms : List Form} (h : ∀ f ∈ forms, P f) :
    P (forms.headD .nil) := by
  cases forms with
  | nil => exact hnil
  | cons f rest => exact h f List.mem_cons_self

lemma forall_getLastD {P : Form → Prop} (hnil : P .nil) {forms : List Form} (h : ∀ f ∈ forms, P f) :
    P (forms.getLastD .nil) := by
  rcases List.eq_nil_or_concat forms with rfl | ⟨rest, f, rfl⟩
  · exact hnil
  · rw [List.concat_eq_append, List.getLastD_concat]
    exact h f (by simp)

lemma readable_getLastD {forms : List Form} (h : ∀ f ∈ forms, f.Readable) :
    (forms.getLastD .nil).Readable := forall_getLastD (P := Form.Readable) trivial h

lemma readable_dropLast {forms : List Form} (h : ∀ f ∈ forms, f.Readable) :
    ∀ f ∈ forms.dropLast, f.Readable := fun f hf => h f (List.dropLast_subset forms hf)

lemma readable_tail {forms : List Form} (h : ∀ f ∈ forms, f.Readable) :
    ∀ f ∈ forms.tail, f.Readable := fun f hf => h f (List.mem_of_mem_tail hf)

lemma readable_splicedBody {f : Form} (h : f.Readable) : ∀ g ∈ splicedBody f, g.Readable := by
  unfold splicedBody
  split
  next name place body span =>
    split
    · exact Form.allReadable_iff.1 h.2.2
    · simpa using h
  next => simpa using h

/-- The form of a call is a literal with a right number of elements, or what is made of its parts. -/
lemma printable_callForm {p : Place} {callee : Node} {args : List Node} {call : List Form → Form}
    {forms : List Form} (hforms : ∀ f ∈ forms, f.Readable)
    (hlength : forms.length = (Node.callParts callee args).length) (hcall : (call forms).PrintableAt p) :
    (Node.callForm callee args call forms).PrintableAt p := by
  have hliteral (shape : Shape) (hmap : shape = .map → forms.length % 2 = 0) :
      (Form.compound shape forms none).Readable := ⟨hmap, Form.allReadable_iff.2 hforms⟩
  cases callKind callee args with
  | @dictionary nodes heven =>
    rw [callParts_dictionary heven] at hlength
    have hreadable := hliteral .map fun _ => hlength ▸ heven
    rw [callForm_dictionary]
    cases p with
    | plain top => exact ⟨hreadable, trivial⟩
    | quoted => exact hreadable
  | @setOf items =>
    have hreadable := hliteral .set nofun
    rw [callForm_setOf]
    cases p with
    | plain top => exact ⟨hreadable, trivial⟩
    | quoted => exact hreadable
  | proper hshape =>
    rw [callForm_proper _ _ hshape]
    exact hcall

lemma printable_list {top : Bool} {forms : List Form} (h : ∀ f ∈ forms, f.PrintableAt (.plain false)) :
    (Form.list forms).PrintableAt (.plain top) := by
  refine ⟨readable_list fun f hf => (h f hf).readable, ?_⟩
  cases forms with
  | nil => trivial
  | cons f rest => exact joinable_list (h f List.mem_cons_self).2.ne_point rest

/-- The forms that the parameters and the body of a function give, if the body stays one form. -/
lemma readable_paramsBody {forms : List Form} (h : ∀ f ∈ forms, f.Readable) :
    ∀ f ∈ [Form.vector forms.dropLast, forms.getLastD .nil], f.Readable :=
  List.forall_mem_cons.2
    ⟨readable_vector (readable_dropLast h), List.forall_mem_singleton.2 (readable_getLastD h)⟩

/-- The forms that the parameters and the body of a function give, if the body is spliced. -/
lemma readable_paramsSpliced {forms : List Form} (h : ∀ f ∈ forms, f.Readable) :
    ∀ f ∈ Form.vector forms.dropLast :: splicedBody (forms.getLastD .nil), f.Readable :=
  List.forall_mem_cons.2 ⟨readable_vector (readable_dropLast h), readable_splicedBody (readable_getLastD h)⟩

lemma printable_assemblePlain {top : Bool} {n : Node} {forms : List Form} (h : n.Named)
    (hmacroCall : ∀ name args, n ≠ .macroCall name args) (hmodule : ∀ name body, n ≠ .moduleBlock name body)
    (hforms : ∀ f ∈ forms, f.PrintableAt (.plain false)) (hlength : forms.length = n.plainParts.length) :
    (n.assemblePlain top forms).PrintableAt (.plain top) := by
  have hnames := h.names
  have hreadable : ∀ f ∈ forms, f.Readable := fun f hf => (hforms f hf).readable
  cases n with
  | literal value => exact ⟨readable_form hnames, by cases value <;> trivial⟩
  | identifier name => exact printable_nameForm hnames top
  | quote value =>
    cases value with
    | identifier name => exact printable_keywordForm (h.children _ List.mem_cons_self).names top
    | _ => exact printable_behind (by decide) (by decide) hreadable
  | call callee args =>
    rw [Node.assemblePlain]
    cases hratio : ratio? callee args with
    | some ratio => exact ⟨trivial, trivial⟩
    | none =>
      rw [Node.plainParts, hratio] at hlength
      exact printable_callForm hreadable hlength (printable_list hforms)
  | comparison operands => exact printable_list hforms
  | block body =>
    rcases body with _ | ⟨m, _ | ⟨k, rest⟩⟩
    · exact ⟨trivial, trivial⟩
    · exact forall_headD (P := Form.PrintableAt (.plain false)) ⟨trivial, trivial⟩ hforms
    · exact printable_behind (by decide) (by decide) hreadable
  | letBlock bindings body => exact printable_behind (by decide) (by decide) (readable_paramsBody hreadable)
  | function name params body =>
    have hname := forall_headD (P := Form.Readable) trivial hreadable
    refine printable_behind ?_ ?_ (List.forall_mem_cons.2 ⟨hname, ?_⟩)
    · cases top <;> decide
    · cases top <;> decide
    · exact readable_paramsSpliced (readable_tail hreadable)
  | anonymous params body => exact printable_behind (by decide) (by decide) (readable_paramsSpliced hreadable)
  | lambda params body => exact printable_behind (by decide) (by decide) (readable_paramsBody hreadable)
  | bareLambda param body => exact printable_behind (by decide) (by decide) (readable_paramsBody hreadable)
  | range parts =>
    by_cases hopen : ∃ start name, parts = [start, .identifier name]
    · obtain ⟨start, name, rfl⟩ := hopen
      refine printable_behind (by decide) (by decide) ?_
      split
      · exact fun f hf => hreadable f (List.mem_of_mem_take hf)
      · exact hreadable
    · rw [Node.assemblePlain]
      · exact printable_behind (by decide) (by decide) hreadable
      · exact fun start name heq => hopen ⟨start, name, heq⟩
  | dotAccess base field =>
    have hbase := forall_headD (P := Form.PrintableAt (.plain top)) ⟨trivial, trivial⟩ hforms
    exact printable_fieldForm hbase hnames
  | ascription operands => exact printable_ascriptionForm h.children hforms
  | macroCall name args => exact absurd rfl (hmacroCall name args)
  | moduleBlock name body => exact absurd rfl (hmodule name body)
  | vector items => exact ⟨readable_vector hreadable, trivial⟩
  | tuple items =>
    cases items with
    | nil => exact ⟨⟨by simp, trivial⟩, trivial⟩
    | cons item rest => exact printable_behind (by decide) (by decide) hreadable
  | raw head args => exact printable_list (List.forall_mem_cons.2 ⟨printable_nameForm hnames false, hforms⟩)
  | _ => exact printable_behind (by decide) (by decide) hreadable

lemma readable_assembleQuoted {n : Node} {forms : List Form} (h : n.Named) (hforms : ∀ f ∈ forms, f.Readable)
    (hlength : forms.length = (n.visits .quoted).length) : (n.assembleQuoted forms).Readable := by
  have hnames := h.names
  have hfirst : (forms.headD .nil).Readable := forall_headD (P := Form.Readable) trivial hforms
  have hlast := readable_getLastD hforms
  have hinit := readable_dropLast hforms
  cases n with
  | literal value => exact readable_form hnames
  | identifier name => exact (printable_nameForm hnames false).readable
  | quote value => exact hfirst
  | vector items => exact readable_vector hforms
  | call callee args =>
    replace hlength := hlength.trans (List.length_map _)
    exact printable_callForm (p := .quoted) hforms hlength (readable_behind (by decide) hforms)
  | function name params body =>
    replace hlength := hlength.trans ((List.length_map _).trans List.length_append)
    have hinitlength : forms.dropLast.length = (Node.callParts name params).length := by
      rw [List.length_dropLast, hlength]
      rfl
    have hsignature : (Node.callForm name params (.headed "call") forms.dropLast).Readable :=
      printable_callForm (p := .quoted) hinit hinitlength (readable_behind (by decide) hinit)
    exact readable_behind (by decide) (List.forall_mem_cons.2 ⟨hsignature, List.forall_mem_singleton.2 hlast⟩)
  | anonymous params body | lambda params body =>
    have htuple : (Form.headed "tuple" forms.dropLast).Readable := readable_behind (by decide) hinit
    exact readable_behind (by decide) (List.forall_mem_cons.2 ⟨htuple, List.forall_mem_singleton.2 hlast⟩)
  | dotAccess base field =>
    have hfield := (printable_nameForm hnames false).readable
    exact readable_behind (by decide) (List.forall_mem_append.2 ⟨hforms, List.forall_mem_singleton.2 hfield⟩)
  | macroCall name args =>
    obtain ⟨rest, rfl, hrest⟩ := hnames
    have hname := (printable_macroName hrest false).readable
    exact readable_behind (by decide) (List.forall_mem_cons.2 ⟨hname, hforms⟩)
  | moduleBlock name body =>
    have hblock : (Form.headed "block" forms.tail).Readable := readable_behind (by decide) (readable_tail hforms)
    exact readable_behind (by decide) (List.forall_mem_cons.2 ⟨hfirst, List.forall_mem_singleton.2 hblock⟩)
  | raw head args =>
    exact readable_list (List.forall_mem_cons.2 ⟨(printable_nameForm hnames false).readable, hforms⟩)
  | _ => exact readable_behind (by rw [Node.head?, Option.getD_some]; decide) hforms

lemma visits_plain {n : Node} (hmacroCall : ∀ name args, n ≠ .macroCall name args)
    (hmodule : ∀ name body, n ≠ .moduleBlock name body) (top : Bool) :
    n.visits (.plain top) = n.plainParts.map (Prod.mk (.plain false)) := by
  cases n with
  | macroCall name args => exact absurd rfl (hmacroCall name args)
  | moduleBlock name body => exact absurd rfl (hmodule name body)
  | _ => rfl

/-- One step: the assembly of what the visited nodes give can be written. -/
lemma printable_assemble {p : Place} {n : Node} {forms : List Form} (h : n.Named)
    (hforms : List.Forall₂ (fun v f => f.PrintableAt v.1) (n.visits p) forms) :
    (n.assemble p forms).PrintableAt p := by
  have hlength := hforms.length_eq
  have hmem := exists_of_mem_forall₂ hforms
  have hreadable : ∀ f ∈ forms, f.Readable := by
    intro f hf
    obtain ⟨v, -, hv⟩ := hmem f hf
    exact hv.readable
  cases p with
  | quoted => exact readable_assembleQuoted h hreadable hlength.symm
  | plain top =>
    have hparts (hmacroCall : ∀ name args, n ≠ .macroCall name args)
        (hmodule : ∀ name body, n ≠ .moduleBlock name body) :
        (n.assemblePlain top forms).PrintableAt (.plain top) := by
      rw [visits_plain hmacroCall hmodule top] at hmem hlength
      refine printable_assemblePlain h hmacroCall hmodule (fun f hf => ?_)
        (hlength.symm.trans (List.length_map _))
      obtain ⟨v, hv, hfv⟩ := hmem f hf
      obtain ⟨m, -, rfl⟩ := List.mem_map.1 hv
      exact hfv
    cases n with
    | macroCall name args =>
      obtain ⟨rest, rfl, hrest⟩ := h.names
      have hname := printable_macroName hrest false
      have hlist := readable_list (List.forall_mem_cons.2 ⟨hname.readable, hreadable⟩)
      exact ⟨hlist, joinable_list hname.2.ne_point forms⟩
    | moduleBlock name body => exact printable_behind (by decide) (by decide) hreadable
    | _ => exact hparts nofun nofun

/-! ## All nodes -/

/-- Whatever a named node is converted to can be written. -/
theorem printable_of_formAt {p : Place} {n : Node} {f : Form} (h : n.Named) (hf : n.formAt p = .ok f) :
    f.PrintableAt p := by
  induction hsize : sizeOf n using Nat.strongRecOn generalizing p n f with
  | _ size ih =>
    subst hsize
    obtain ⟨-, forms, hforms, rfl⟩ := formAt_eq_ok.1 hf
    have hvisits : ∀ v ∈ n.visits p, ∀ g, v.2.formAt v.1 = .ok g → g.PrintableAt v.1 := fun v hv g hg =>
      ih (sizeOf v.2) (sizeOf_visits hv) (named_visits h p v hv) hg rfl
    have hprintable := ((List.forall₂_and_left _ _).2 ⟨hvisits, hforms⟩).imp fun v g hv => hv.1 g hv.2
    exact printable_assemble h hprintable

/-- Whatever a node with proper names is written as, at top level, inside another node or in a macro call, is
read without a fault as the one form that was written, whatever the shape of the node. -/
theorem printed_node_read_back {n : Node} {f : Form} (h : n.Named)
    (hf : (∃ top, n.toForm top = .ok f) ∨ n.toQuotedForm = .ok f) :
    (forms f.text).ending = .ok () ∧ Form.bareAll (forms f.text).items = [f.bare] := by
  have hreadable : f.Readable := by
    rcases hf with ⟨top, hf⟩ | hf
    · exact (printable_of_formAt (p := .plain top) h hf).readable
    · exact (printable_of_formAt (p := .quoted) h hf).readable
  obtain ⟨read, hbare, hforms⟩ := forms_layout (List.forall_mem_singleton.2 hreadable) (le_refl (0 : Int))
  have htext : Form.layout [f] 0 = f.text := join_texts_singleton _ f
  rw [htext] at hforms
  rw [hforms, Feed.ending_ofList, Feed.items_ofList]
  exact ⟨rfl, hbare⟩

/-- A field of a type, types of an operator and an empty block, in a list that a conversion never makes. -/
def oddNode : Node :=
  .raw "+" [.dotAccess (.ascription [.identifier "T"]) "nothing", .ascription [.identifier "a_b", .identifier "$"],
    .block [], .literal (.number (.double (.infinite true)))]

lemma named_oddNode : oddNode.Named := by
  have hname {name : Text} (h : IsNodeName name) : (Node.identifier name).Named :=
    .mk h fun m hm => absurd hm List.not_mem_nil
  have hnumber : (Node.literal (.number (.double (.infinite true)))).Named := by
    refine .mk ?_ fun m hm => absurd hm List.not_mem_nil
    rintro number ⟨⟩
    trivial
  have htype : (Node.ascription [.identifier "T"]).Named :=
    .mk trivial (List.forall_mem_singleton.2 (hname (.inl (by decide))))
  have htypes : (Node.ascription [.identifier "a_b", .identifier "$"]).Named := by
    refine .mk trivial (List.forall_mem_cons.2 ⟨hname (.inl (by decide)), List.forall_mem_singleton.2 ?_⟩)
    exact hname (.inr (by decide))
  have hfield : (Node.dotAccess (.ascription [.identifier "T"]) "nothing").Named :=
    .mk (.inl (by decide)) (List.forall_mem_singleton.2 htype)
  have hblock : (Node.block []).Named := .mk trivial fun m hm => absurd hm List.not_mem_nil
  refine .mk (.inr (by decide)) (List.forall_mem_cons.2 ⟨hfield, List.forall_mem_cons.2 ⟨htypes, ?_⟩⟩)
  exact List.forall_mem_cons.2 ⟨hblock, List.forall_mem_singleton.2 hnumber⟩

theorem printed_node_read_back_odd : oddNode.Named ∧ ∃ f g,
    oddNode.toForm false = .ok f ∧ Form.bareAll (forms f.text).items = [f.bare] ∧
      oddNode.toQuotedForm = .ok g ∧ Form.bareAll (forms g.text).items = [g.bare] :=
  ⟨named_oddNode, _, _, rfl, (printed_node_read_back named_oddNode (.inl ⟨false, rfl⟩)).2,
    rfl, (printed_node_read_back named_oddNode (.inr rfl)).2⟩

end Bilisp
