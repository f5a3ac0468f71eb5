import Bilisp.Proofs.FormGrammar
import Bilisp.Proofs.SettledPrograms

/-!
# What is read with a written form

The form of a node is made of the forms of other nodes and of what is written around these. Wherever it is read,
nothing in it is malformed but the lists of calls and of field accesses, which begin with what is written for a part
(`led_of_malformed`). So the form has a node again if these lists are not malformed and the symbols have nodes
(`convertible_of_legible`).
-/

namespace Bilisp

open Node

/-! ## Places -/

/-- Whether what is written at one place may be read at another one. Quoted code is read as such, and statements are
not read as parts of other forms. -/
def Place.ReadsAt : Place → Place → Prop
  | .plain false, _ => True
  | .plain true, r => r ≠ .plain false
  | .quoted, r => r = .quoted

lemma readsAt_self (p : Place) : p.ReadsAt p := by
  rcases p with (_ | _) | _
  · trivial
  · nofun
  · rfl

@[simp] lemma inner_inner (p : Place) : p.inner.inner = p.inner := by cases p <;> rfl

/-- The nodes that are converted with a node, with their places. -/
def Node.converted (v : Place × Node) : List (Place × Node) := v.2.visits v.1

/-- Whether the list that is written for a node begins with what is written for a part of it. -/
def Node.IsLedByPart : Node → Prop
  | .call _ _ | .dotAccess _ _ => True
  | _ => False

/-! ## Members -/

section

variable {r : Place} {name : Text} {args : List Form} {place span : Option Span}

/-- Whether the forms behind a symbol are converted at the place of any other parts of a list. -/
def IsOrdinaryHead (name : Text) : Prop :=
  name ≠ "module".toList ∧ name ≠ "quote".toList ∧ ¬(name.head? = some '@' ∧ 1 < name.length)

instance (name : Text) : Decidable (IsOrdinaryHead name) := inferInstanceAs (Decidable (_ ∧ _ ∧ _))

lemma members_ordinary (hname : IsOrdinaryHead name) :
    Form.members (r, .compound .list (.atom (.symbol name) place :: args) span) = args.map (Prod.mk r.inner) := by
  obtain ⟨hmodule, hquote, hmacro⟩ := hname
  rw [Form.members, Form.head?]
  dsimp only
  cases r with
  | plain top => rw [Form.argumentPlaces, if_neg hmodule, if_neg hmacro]; rfl
  | quoted => rw [Form.argumentPlaces, if_neg hquote]; rfl

lemma members_quoted (hname : name ≠ "quote".toList) :
    Form.members (.quoted, .compound .list (.atom (.symbol name) place :: args) span) =
      args.map (Prod.mk .quoted) := by
  rw [Form.members, Form.head?]
  dsimp only
  rw [Form.argumentPlaces, if_neg hname]
  rfl

/-- The arguments of a macro call are quoted wherever the call stands. -/
lemma members_macro (hhead : name.head? = some '@') (hlength : 1 < name.length) :
    Form.members (r, .compound .list (.atom (.symbol name) place :: args) span) = args.map (Prod.mk .quoted) := by
  have hne {other : Text} (hother : other.head? ≠ some '@') : name ≠ other := fun heq => hother (heq ▸ hhead)
  cases r with
  | plain top =>
    rw [Form.members, Form.head?]
    dsimp only
    rw [Form.argumentPlaces, if_neg (hne (by decide)), if_pos ⟨hhead, hlength⟩]
    rfl
  | quoted => exact members_quoted (hne (by decide))

end

lemma contains_of_reaches {v w : Place × Form} (h : Reaches Form.members v w) : v.2.Contains w.2 := by
  induction h using Relation.ReflTransGen.head_induction_on with
  | refl => exact .self _
  | @head u _ hstep _ ih =>
    obtain ⟨r, f⟩ := u
    have hmem := mem_elements_of_mem_members hstep
    cases f with
    | atom value span => cases hmem
    | compound shape elements span => exact .element hmem ih

/-! ## Sound forms -/

/-- Whether a form is sound if the symbols in it have nodes. -/
def Form.NearlySound : Form → Prop
  | .atom value _ => (∀ name, value ≠ .symbol name) → ∀ span, ∃ n, atomNode value span = .ok n
  | .compound shape elements _ => shape = .map → elements.length % 2 = 0

lemma Form.NearlySound.sound {f : Form} (h : f.NearlySound)
    (hsymbols : ∀ name span, f.Contains (.atom (.symbol name) span) → symbolNode? name ≠ none) : f.Sound := by
  cases f with
  | atom value span =>
    by_cases hsymbol : ∃ name, value = .symbol name
    · obtain ⟨name, rfl⟩ := hsymbol
      exact exists_symbolAtomNode (hsymbols name span (.self _))
    · exact h (not_exists.1 hsymbol)
  | compound shape elements span => exact ⟨h, fun name place hmem => hsymbols name place (.element hmem (.self _))⟩

lemma nearlySound_symbol (name : Text) (span : Option Span) : (Form.atom (.symbol name) span).NearlySound :=
  fun h => absurd rfl (h name)

lemma nearlySound_list (elements : List Form) (span : Option Span) :
    (Form.compound .list elements span).NearlySound := nofun

lemma nearlySound_call {top : Bool} {callee : Node} {args : List Node} {fs : List Form}
    (hlength : fs.length = (Node.call callee args).plainParts.length) :
    ((Node.call callee args).assemblePlain top fs).NearlySound := by
  rw [assemblePlain]
  rw [plainParts] at hlength
  cases hratio : ratio? callee args with
  | some ratio => exact fun _ _ => ⟨_, rfl⟩
  | none =>
    rw [hratio] at hlength
    dsimp only
    cases callKind callee args with
    | dictionary heven =>
      rw [callForm_dictionary]
      rw [callParts_dictionary heven] at hlength
      exact fun _ => hlength ▸ heven
    | setOf =>
      rw [callForm_setOf]
      intro h
      cases h
    | proper hshape =>
      rw [callForm_proper _ _ hshape]
      exact nearlySound_list _ _

/-! ## What is written for a node -/

/-- The forms that are read with what is written for a node, with their places: those of the calls and the field
accesses that are converted with it, and forms that are not malformed. -/
inductive WrittenFor (v : Place × Node) : Place × Form → Prop
  | led {p r : Place} {m : Node} {f : Form} (hm : Reaches converted v (p, m)) (hled : m.IsLedByPart)
    (hf : m.formAt p = .ok f) (hsound : f.NearlySound) (hmembers : ∀ w ∈ Form.members (r, f), WrittenFor v w) :
    WrittenFor v (r, f)
  | around {r : Place} {f : Form} (hwhole : ¬f.Malformed r) (hsound : f.NearlySound)
    (hmembers : ∀ w ∈ Form.members (r, f), WrittenFor v w) : WrittenFor v (r, f)

/-- Whether a form is written for a node wherever it is read. -/
def WrittenAnywhere (v : Place × Node) (f : Form) : Prop := ∀ r, WrittenFor v (r, f)

/-- Whether a form is written for a node wherever it may be read if it is written at a place. -/
def WrittenAt (v : Place × Node) (p : Place) (f : Form) : Prop := ∀ r, p.ReadsAt r → WrittenFor v (r, f)

section

variable {v : Place × Node} {r : Place} {f : Form} {fs : List Form}

lemma WrittenFor.members {w : Place × Form} (h : WrittenFor v w) : ∀ u ∈ Form.members w, WrittenFor v u := by
  cases h with
  | led _ _ _ _ hmembers => exact hmembers
  | around _ _ hmembers => exact hmembers

lemma WrittenFor.nearlySound {w : Place × Form} (h : WrittenFor v w) : w.2.NearlySound := by
  cases h with
  | led _ _ _ hsound _ => exact hsound
  | around _ hsound _ => exact hsound

/-! ### Forms without a name of their own -/

lemma writtenAnywhere_atom {value : Atom} {span : Option Span} (h : (Form.atom value span).NearlySound) :
    WrittenAnywhere v (.atom value span) := fun _ =>
  .around (not_malformed rfl (by simp)) h (List.forall_mem_nil _)

lemma writtenAnywhere_symbol (name : Text) (span : Option Span) : WrittenAnywhere v (.atom (.symbol name) span) :=
  writtenAnywhere_atom (nearlySound_symbol name span)

lemma writtenAnywhere_nil : WrittenAnywhere v .nil := writtenAnywhere_atom fun _ _ => ⟨_, rfl⟩

lemma writtenAnywhere_nameForm (name : Text) : WrittenAnywhere v (nameForm name) := by
  rw [nameForm]
  split
  · exact writtenAnywhere_nil
  · exact writtenAnywhere_symbol _ _

lemma writtenAnywhere_literal {value : Literal} (h : value.form.Readable) : WrittenAnywhere v value.form := by
  have hsound := h.sound
  cases value <;> exact writtenAnywhere_atom fun _ => hsound

lemma writtenFor_elements (h : ∀ f ∈ fs, WrittenAnywhere v f) (shape : Shape) (span : Option Span) :
    ∀ w ∈ Form.members (r, .compound shape fs span), WrittenFor v w := fun w hw =>
  h w.2 (mem_elements_of_mem_members hw) w.1

lemma writtenAnywhere_vector (h : ∀ f ∈ fs, WrittenAnywhere v f) : WrittenAnywhere v (.vector fs) := fun _ =>
  .around (not_malformed rfl (by simp [Form.vector])) nofun (writtenFor_elements h .vector none)

/-! ### Lists of special forms -/

lemma writtenFor_behind (h : ∀ f ∈ fs, WrittenAnywhere v f) (name : Text) :
    ∀ w ∈ Form.members (r, .headed name fs), WrittenFor v w := fun w hw =>
  h w.2 (mem_of_mem_argumentPlaces hw) w.1

/-- A list that a special form leads is not malformed if the special form accepts the arguments. -/
lemma writtenFor_special {name : Text} {special : SpecialForm} (hspecial : SpecialForm.ofName? name = some special)
    (haccepts : ∀ top, r = .plain top → special.Accepts top fs) (hquote : name ≠ "quote".toList ∨ fs.length = 1)
    (hmembers : ∀ w ∈ Form.members (r, .headed name fs), WrittenFor v w) : WrittenFor v (r, .headed name fs) := by
  refine .around ?_ (nearlySound_list _ _) hmembers
  cases r with
  | plain top => exact fun h => (malformed_special_iff hspecial).1 h (haccepts top rfl)
  | quoted =>
    intro h
    obtain ⟨hname, hlength⟩ := malformed_quoted_iff.1 h
    exact hquote.elim (fun hne => hne hname) hlength

lemma writtenAnywhere_special {name : Text} {special : SpecialForm}
    (hspecial : SpecialForm.ofName? name = some special) (haccepts : ∀ top, special.Accepts top fs)
    (hquote : name ≠ "quote".toList ∨ fs.length = 1) (h : ∀ f ∈ fs, WrittenAnywhere v f) :
    WrittenAnywhere v (.headed name fs) := fun _ =>
  writtenFor_special hspecial (fun top _ => haccepts top) hquote (writtenFor_behind h name)

/-- The statements of a body are members of the list that is written for the body, unless it is no such list. -/
lemma writtenFor_splicedBody (h : WrittenAnywhere v f) (r : Place) :
    ∀ g ∈ splicedBody f, WrittenFor v (r.inner, g) := by
  intro g hg
  by_cases hdo : ∃ place forms span, f = .compound .list (.atom (.symbol "do") place :: forms) span
  · obtain ⟨place, forms, span, rfl⟩ := hdo
    refine (h r).members (r.inner, g) ?_
    rw [members_ordinary (by decide)]
    exact List.mem_map_of_mem hg
  · rw [splicedBody_of_ne fun place forms span heq => hdo ⟨place, forms, span, heq⟩, List.mem_singleton] at hg
    exact hg ▸ h r.inner

/-- A function is written with its name, if any, in front of its parameters, and with the statements of its body. -/
lemma writtenAnywhere_function {name : Text} {special : SpecialForm} {front : List Form} {params body : Form}
    (hspecial : SpecialForm.ofName? name = some special) (hordinary : IsOrdinaryHead name)
    (haccepts : ∀ top, special.Accepts top (front ++ params :: splicedBody body))
    (hfront : ∀ f ∈ front, WrittenAnywhere v f) (hparams : WrittenAnywhere v params)
    (hbody : WrittenAnywhere v body) : WrittenAnywhere v (.headed name (front ++ params :: splicedBody body)) := by
  intro r
  refine writtenFor_special hspecial (fun top _ => haccepts top) (.inl hordinary.2.1) ?_
  rw [Form.headed, Form.list, Form.symbol, members_ordinary hordinary, List.forall_mem_map]
  refine List.forall_mem_append.2 ⟨fun f hf => hfront f hf _, List.forall_mem_cons.2 ⟨hparams _, ?_⟩⟩
  exact writtenFor_splicedBody hbody r

lemma Listing.accepts (kind : Listing) (hne : fs ≠ [] ∨ kind.MayBeEmpty) {top : Bool} :
    kind.special.Accepts top fs := by
  cases kind with
  | tuple | conjunction | disjunction => trivial
  | _ => exact List.length_pos_of_ne_nil (hne.resolve_right (by simp [MayBeEmpty]))

/-! ### Fields, types and ranges -/

/-- The list of a field access takes its form from a list that it continues. -/
lemma writtenFor_fieldForm (h : WrittenAnywhere v f) (field : Text) :
    ∀ w ∈ Form.members (r, fieldForm f field), WrittenFor v w := by
  rcases fieldForm_cases f field with ⟨s, span, -, -, hform⟩ | ⟨place, inner, last, place', span, rfl, hform⟩ |
    ⟨hform, -⟩
  · rw [hform]
    exact List.forall_mem_nil _
  · have hinner := (h r).members (r.inner, inner)
    rw [members_ordinary (by decide)] at hinner
    rw [hform, Form.list, members_ordinary (by decide), List.forall_mem_map]
    refine List.forall_mem_cons.2 ⟨hinner (by simp), List.forall_mem_singleton.2 ?_⟩
    exact writtenAnywhere_symbol _ _ r.inner
  · rw [hform]
    exact writtenFor_behind (List.forall_mem_cons.2 ⟨h, List.forall_mem_singleton.2 (writtenAnywhere_symbol _ _)⟩) "."

lemma nearlySound_fieldForm (f : Form) (field : Text) : (fieldForm f field).NearlySound := by
  rcases fieldForm_cases f field with ⟨s, span, -, -, hform⟩ | ⟨place, inner, last, place', span, -, hform⟩ |
    ⟨hform, -⟩
  · rw [hform]
    exact nearlySound_symbol _ _
  · rw [hform]
    exact nearlySound_list _ _
  · rw [hform]
    exact nearlySound_list _ _

lemma exists_symbol_of_ascriptionSymbol? {operands : List Node} (h : ascriptionSymbol? operands fs = some f) :
    ∃ name, f = .symbol name := by
  unfold ascriptionSymbol? at h
  split at h
  · cases h
  · exact ⟨_, (Option.some.inj h).symm⟩
  · exact ⟨_, (Option.some.inj h).symm⟩
  · split at h
    · split at h
      · cases h
      · exact ⟨_, (Option.some.inj h).symm⟩
    · cases h

lemma writtenAnywhere_ascriptionForm (operands : List Node) (hne : fs ≠ []) (h : ∀ f ∈ fs, WrittenAnywhere v f) :
    WrittenAnywhere v (ascriptionForm operands fs) := by
  rw [ascriptionForm]
  cases hsymbol : ascriptionSymbol? operands fs with
  | none => exact writtenAnywhere_special rfl (fun _ => List.length_pos_of_ne_nil hne) (.inl (by decide)) h
  | some g =>
    obtain ⟨name, rfl⟩ := exists_symbol_of_ascriptionSymbol? hsymbol
    exact writtenAnywhere_symbol name none

lemma writtenAnywhere_range {parts : List Node} (hparts : parts.length = 2 ∨ parts.length = 3)
    (hlength : fs.length = parts.length) (h : ∀ f ∈ fs, WrittenAnywhere v f) (top : Bool) :
    WrittenAnywhere v ((Node.range parts).assemblePlain top fs) := by
  by_cases hopen : ∃ start, parts = [start, .identifier "end"]
  · obtain ⟨start, rfl⟩ := hopen
    obtain ⟨f, g, rfl⟩ := List.length_eq_two.1 hlength
    have hfirst : ∀ e ∈ [f], WrittenAnywhere v e := List.forall_mem_singleton.2 (h f List.mem_cons_self)
    change WrittenAnywhere v (.headed ":" [f])
    exact writtenAnywhere_special rfl (fun _ => by simp [SpecialForm.Accepts]) (.inl (by decide)) hfirst
  · rw [assemblePlain_closedRange hopen]
    refine writtenAnywhere_special rfl (fun _ => ?_) (.inl (by decide)) h
    rw [SpecialForm.Accepts]
    omega

/-! ### Macro calls and modules -/

/-- In a macro call only quotations are counted. -/
lemma writtenFor_quoted (hhead : f.head? ≠ some "quote".toList) (hsound : f.NearlySound)
    (h : ∀ g ∈ f.elements, WrittenFor v (.quoted, g)) : WrittenFor v (.quoted, f) := by
  refine .around ?_ hsound ?_
  · rintro (_ | _)
    exact hhead ‹_›
  · rintro ⟨r, g⟩ hw
    have hg := h g (mem_elements_of_mem_members hw)
    rw [Form.members] at hw
    split at hw
    next name hname =>
      rw [Form.argumentPlaces, if_neg fun heq => hhead (hname.trans (congrArg some heq))] at hw
      obtain ⟨_, -, ⟨⟩⟩ := List.mem_map.1 hw
      exact hg
    next =>
      obtain ⟨_, -, ⟨⟩⟩ := List.mem_map.1 hw
      exact hg

lemma writtenFor_quotedList {name : Text} (hname : name ≠ "quote".toList) (h : ∀ f ∈ fs, WrittenFor v (.quoted, f)) :
    WrittenFor v (.quoted, .headed name fs) :=
  writtenFor_quoted (fun heq => hname (Option.some.inj heq)) (nearlySound_list _ _)
    (List.forall_mem_cons.2 ⟨writtenAnywhere_symbol name none .quoted, h⟩)

lemma holds_writtenFor : Form.HoldsInMacros fun f => WrittenFor v (.quoted, f) where
  nil := writtenAnywhere_nil .quoted
  vector h := writtenFor_quoted nofun nofun h
  map h heven := writtenFor_quoted nofun (fun _ => heven) h
  set h := writtenFor_quoted nofun nofun h
  tuple h := writtenFor_quotedList (by decide) h
  word hword h := by
    have hwords : ∀ word ∈ quotedWords, word ≠ "quote".toList := by decide
    exact writtenFor_quotedList (hwords _ hword) h

/-- Only the host name of the symbol of quotations is written as this symbol. -/
lemma unescapeSymbol_ne_quote {head : Text} (h : head ≠ "quote".toList) : unescapeSymbol head ≠ "quote".toList := by
  intro heq
  obtain ⟨-, hspells⟩ := unescapeSymbol_of_ne (heq ▸ h.symm)
  rw [heq, spells, Bool.and_eq_true, beq_iff_eq, escapeSymbol_of_not_mem (by decide)] at hspells
  exact h hspells.2.symm

lemma writtenFor_raw {head : Text} (hhead : head ≠ "quote".toList) (h : ∀ f ∈ fs, WrittenFor v (.quoted, f)) :
    WrittenFor v (.quoted, .list (nameForm head :: fs)) := by
  refine writtenFor_quoted ?_ (nearlySound_list _ _)
    (List.forall_mem_cons.2 ⟨writtenAnywhere_nameForm head .quoted, h⟩)
  rw [nameForm]
  split
  · simp [Form.head?, Form.list, Form.nil]
  · exact fun heq => unescapeSymbol_ne_quote hhead (Option.some.inj heq)

lemma writtenAnywhere_macroCall {name : Text} (hhead : name.head? = some '@') (hlength : 1 < name.length)
    (h : ∀ f ∈ fs, WrittenFor v (.quoted, f)) : WrittenAnywhere v (.list (nameForm name :: fs)) := by
  obtain ⟨hhead', hlength'⟩ := unescapeSymbol_macro hhead hlength
  have hne : name ≠ nothingName := by
    rintro rfl
    cases hhead
  have hquote : unescapeSymbol name ≠ "quote".toList := by
    intro heq
    rw [heq] at hhead'
    cases hhead'
  intro r
  rw [nameForm_of_ne hne]
  refine .around ?_ (nearlySound_list _ _) ?_
  · cases r with
    | plain top => exact not_malformed_call (ofName?_of_head hhead')
    | quoted => exact fun hmalformed => hquote (malformed_quoted_iff.1 hmalformed).1
  · rw [Form.list, Form.symbol, members_macro hhead' hlength']
    exact List.forall_mem_map.2 h

lemma writtenAnywhere_moduleBlock (hf : WrittenAnywhere v f)
    (h : ∀ g ∈ fs, ∀ r, r ≠ .plain false → WrittenFor v (r, g)) : WrittenAnywhere v (.headed "module" (f :: fs)) := by
  intro r
  refine writtenFor_special rfl (fun _ _ => Nat.zero_lt_succ _) (.inl (by decide)) ?_
  cases r with
  | plain top =>
    change ∀ w ∈ [(Place.plain false, f)] ++ fs.map (Prod.mk (.plain true)), WrittenFor v w
    exact List.forall_mem_cons.2 ⟨hf _, List.forall_mem_map.2 fun g hg => h g hg _ (by simp)⟩
  | quoted =>
    rw [Form.headed, Form.list, Form.symbol, members_quoted (by decide)]
    exact List.forall_mem_map.2 (List.forall_mem_cons.2 ⟨hf _, fun g hg => h g hg _ (by simp)⟩)

end

/-! ## One step -/

section

variable {v : Place × Node} {m : Node} {fs : List Form}

/-- The form of a node outside macro calls is written for the node if the forms of its parts are. -/
lemma writtenAnywhere_assemblePlain {top : Bool} (hm : m.Normal (.plain false))
    (hreaches : ∃ p, Reaches converted v (p, m) ∧ m.formAt p = .ok (m.assemblePlain top fs))
    (hmacroCall : ∀ name args, m ≠ .macroCall name args) (hmodule : ∀ name body, m ≠ .moduleBlock name body)
    (hlength : fs.length = m.plainParts.length) (h : ∀ f ∈ fs, WrittenAnywhere v f) :
    WrittenAnywhere v (m.assemblePlain top fs) := by
  have hinit (gs : List Form) (hgs : ∀ f ∈ gs, WrittenAnywhere v f) : WrittenAnywhere v (.vector gs.dropLast) :=
    writtenAnywhere_vector fun f hf => hgs f (List.mem_of_mem_dropLast hf)
  cases hm with
  | literal h => exact writtenAnywhere_literal h
  | identifier => exact writtenAnywhere_nameForm _
  | @quote value hvalue =>
    by_cases hname : ∃ name, value = .identifier name
    · obtain ⟨name, rfl⟩ := hname
      exact writtenAnywhere_atom fun _ _ => ⟨_, rfl⟩
    · have hne := not_exists.1 hname
      rw [plainParts_quote hne] at hlength
      rw [assemblePlain_quote hne]
      exact writtenAnywhere_special rfl (fun _ => hlength) (.inr hlength) h
  | interpolate => exact writtenAnywhere_special rfl (fun _ => hlength) (.inl (by decide)) h
  | @call callee args hcallee hargs =>
    intro r
    obtain ⟨p, hm, hf⟩ := hreaches
    refine .led hm trivial hf (nearlySound_call hlength) ?_
    rw [assemblePlain]
    split
    · exact List.forall_mem_nil _
    · rw [callForm]
      split <;> exact writtenFor_elements h _ _
  | ifThen => exact writtenAnywhere_special rfl (fun _ => .inl hlength) (.inl (by decide)) h
  | ifElse => exact writtenAnywhere_special rfl (fun _ => .inr hlength) (.inl (by decide)) h
  | @block body hbody hcount =>
    obtain ⟨first, second, rest, rfl⟩ := exists_cons_cons hcount
    exact writtenAnywhere_special rfl (fun _ => trivial) (.inl (by decide)) h
  | @letBlock parts body hparts hbody =>
    refine writtenAnywhere_special rfl (fun _ => ⟨_, _, rfl, rfl, ?_⟩) (.inl (by decide))
      (List.forall_mem_cons.2 ⟨hinit fs h, List.forall_mem_singleton.2 (forall_getLastD writtenAnywhere_nil h)⟩)
    have heven := even_bindingParts parts
    rw [plainParts, List.length_append, List.length_singleton] at hlength
    rw [Form.vector, elements_compound, List.length_dropLast, hlength, Nat.add_sub_cancel]
    exact heven
  | function =>
    have htail : ∀ f ∈ fs.tail, WrittenAnywhere v f := fun f hf => h f (List.mem_of_mem_tail hf)
    have hfirst := List.forall_mem_singleton.2 (forall_headD writtenAnywhere_nil h)
    have hlast := forall_getLastD writtenAnywhere_nil htail
    rw [assemblePlain]
    cases top with
    | true =>
      have hspecial : SpecialForm.ofName? "defn" = some .namedFunction := rfl
      exact writtenAnywhere_function hspecial (by decide) (fun _ => ⟨_, _, _, rfl, rfl⟩) hfirst (hinit _ htail) hlast
    | false =>
      have hspecial : SpecialForm.ofName? "fn" = some .function := rfl
      exact writtenAnywhere_function hspecial (by decide) (fun _ => .inr ⟨_, _, _, rfl, rfl⟩) hfirst (hinit _ htail)
        hlast
  | lambda =>
    exact writtenAnywhere_special rfl (fun _ => .inl ⟨_, _, rfl, rfl⟩) (.inl (by decide))
      (List.forall_mem_cons.2 ⟨hinit fs h, List.forall_mem_singleton.2 (forall_getLastD writtenAnywhere_nil h)⟩)
  | @listing kind parts hparts hne =>
    rw [plainParts_listing] at hlength
    have hne' : fs ≠ [] ∨ kind.MayBeEmpty := hne.imp_left (ne_nil_of_length_eq hlength)
    rw [assemblePlain_listing kind hne]
    exact writtenAnywhere_special kind.ofName?_name (fun _ => kind.accepts hne') (.inl (by cases kind <;> decide)) h
  | emptyTuple =>
    exact fun _ => .around (not_malformed rfl (by simp [assemblePlain, Form.list])) (nearlySound_list _ _)
      (List.forall_mem_nil _)
  | subscript =>
    refine writtenAnywhere_special rfl (fun _ => ?_) (.inl (by decide)) h
    rw [SpecialForm.Accepts, hlength]
    exact Nat.zero_lt_succ _
  | range hparts hcount => exact writtenAnywhere_range hcount hlength h top
  | dotAccess =>
    intro r
    obtain ⟨p, hm, hf⟩ := hreaches
    exact .led hm trivial hf (nearlySound_fieldForm _ _) (writtenFor_fieldForm (forall_headD writtenAnywhere_nil h) _)
  | ascription hoperands hne =>
    exact writtenAnywhere_ascriptionForm _ (ne_nil_of_length_eq hlength hne) h
  | macroCall => exact absurd rfl (hmacroCall _ _)
  | moduleBlock => exact absurd rfl (hmodule _ _)
  | vector => exact writtenAnywhere_vector h

/-- A definition is read among statements only, where it is written. -/
lemma writtenFor_definition {r : Place} (hr : r ≠ .plain false) (hlength : fs.length = 2)
    (h : ∀ f ∈ fs, WrittenAnywhere v f) : WrittenFor v (r, .headed "def" fs) := by
  have hspecial : SpecialForm.ofName? "def" = some .definition := rfl
  refine writtenFor_special hspecial (fun top heq => ⟨hlength, ?_⟩) (.inl (by decide)) (writtenFor_behind h _)
  cases top with
  | true => rfl
  | false => exact absurd heq hr

end

/-! ## All nodes -/

lemma ne_quote_of_normal {p : Place} {head : Text} {args : List Node} (h : (Node.raw head args).Normal p) :
    head ≠ "quote".toList := by
  generalize hn : Node.raw head args = n at h
  induction h with
  | statement h ih => exact ih hn
  | argument h ih => exact ih hn
  | raw hhead hargs =>
    cases hn
    exact hhead
  | listing kind hparts hne => cases kind <;> cases hn
  | _ => cases hn

section

variable {v : Place × Node} {m : Node} {fs : List Form}

lemma forall_writtenAt {p : Place} {nodes : List Node}
    (h : List.Forall₂ (fun w g => WrittenAt v w.1 g) (nodes.map (Prod.mk p)) fs) : ∀ g ∈ fs, WrittenAt v p g := by
  intro g hg
  obtain ⟨n, -, hn⟩ := exists_of_mem_forall₂ (List.forall₂_map_left_iff.1 h) g hg
  exact hn

/-- In a macro call the form of a node is written for the node if the forms of its parts are. -/
lemma writtenFor_quotedForm (hnormal : m.NormalAt .quoted)
    (hparts : List.Forall₂ (fun w g => WrittenAt v w.1 g) (m.visits .quoted) fs) :
    WrittenFor v (.quoted, m.assembleQuoted fs) := by
  by_cases hquote : ∃ value, m = .quote value
  · obtain ⟨value, rfl⟩ := hquote
    obtain ⟨g, gs, hg, hnil, rfl⟩ := List.forall₂_cons_left_iff.1 hparts
    exact hg .quoted trivial
  · have hne := not_exists.1 hquote
    have hlength := hparts.length_eq.symm
    rw [visits_quoted hne] at hparts
    have hall : ∀ g ∈ fs, WrittenFor v (.quoted, g) := fun g hg => forall_writtenAt hparts g hg .quoted rfl
    obtain ⟨q, hq⟩ := hnormal
    refine holds_assembleQuoted holds_writtenFor hne (fun value heq => ?_)
      (fun name _ => writtenAnywhere_nameForm name .quoted) (fun head args heq => ?_) hall hlength
    · subst heq
      exact writtenAnywhere_literal (readable_of_normal hq) .quoted
    · subst heq
      exact writtenFor_raw (ne_quote_of_normal hq) hall

/-- Outside macro calls the form of a node is written for the node if the forms of its parts are. -/
lemma writtenFor_plainForm {top : Bool} (hm : Reaches converted v (.plain top, m)) (hnormal : m.NormalAt (.plain top))
    (hf : m.formAt (.plain top) = .ok (m.assemblePlain top fs))
    (hparts : List.Forall₂ (fun w g => WrittenAt v w.1 g) (m.visits (.plain top)) fs) :
    WrittenAt v (.plain top) (m.assemblePlain top fs) := by
  intro r hr
  have hstep (hmacroCall : ∀ name args, m ≠ .macroCall name args)
      (hmodule : ∀ name body, m ≠ .moduleBlock name body)
      (hassignment : ∀ target value, m ≠ .assignment target value) : WrittenFor v (r, m.assemblePlain top fs) := by
    rw [visits_plain hmacroCall hmodule top] at hparts
    have hlength := hparts.length_eq.symm
    rw [List.length_map] at hlength
    exact writtenAnywhere_assemblePlain (hnormal.lower hassignment) ⟨.plain top, hm, hf⟩ hmacroCall hmodule hlength
      (fun g hg r => forall_writtenAt hparts g hg r trivial) r
  cases m with
  | macroCall name args =>
    obtain ⟨hhead, hname⟩ := head_of_normal hnormal
    exact writtenAnywhere_macroCall hhead hname (fun g hg => forall_writtenAt hparts g hg .quoted rfl) r
  | moduleBlock name body =>
    obtain ⟨g, gs, hname, hbody, rfl⟩ := List.forall₂_cons_left_iff.1 hparts
    exact writtenAnywhere_moduleBlock (fun r => hname r trivial) (forall_writtenAt hbody) r
  | assignment target value =>
    obtain ⟨hfits, -⟩ := formAt_eq_ok.1 hf
    obtain rfl : top = true := hfits
    exact writtenFor_definition hr hparts.length_eq.symm fun g hg r => forall_writtenAt hparts g hg r trivial
  | _ => exact hstep (by simp) (by simp) (by simp)

/-- The form of a node is written for every node with which the node is converted. -/
theorem writtenAt_formAt {p : Place} {f : Form} (hm : Reaches converted v (p, m)) (hnormal : m.NormalAt p)
    (hf : m.formAt p = .ok f) : WrittenAt v p f := by
  induction hsize : sizeOf m using Nat.strongRecOn generalizing p m f with
  | _ size ih =>
    subst hsize
    obtain ⟨-, fs, hforms, rfl⟩ := formAt_eq_ok.1 hf
    have hstep : ∀ w ∈ m.visits p, ∀ g, w.2.formAt w.1 = .ok g → WrittenAt v w.1 g := fun w hw g hg =>
      ih (sizeOf w.2) (sizeOf_visits hw) (hm.tail hw) ((normalAt_visits hnormal).2 w hw) hg rfl
    have hparts := ((List.forall₂_and_left _ _).2 ⟨hstep, hforms⟩).imp fun w g hw => hw.1 g hw.2
    cases p with
    | quoted =>
      rintro r rfl
      exact writtenFor_quotedForm hnormal hparts
    | plain top => exact writtenFor_plainForm hm hnormal hf hparts

end

lemma writtenFor_of_reaches {v : Place × Node} {w u : Place × Form} (h : Reaches Form.members w u)
    (hw : WrittenFor v w) : WrittenFor v u := by
  induction h with
  | refl => exact hw
  | tail _ hmem ih => exact ih.members _ hmem

section

variable {p : Place} {n : Node} {g : Form}

/-- A malformed form in what is written for a node is the list of a call or of a field access. -/
theorem led_of_malformed (hn : n.NormalAt p) (hg : n.formAt p = .ok g) {r : Place} {f : Form}
    (hf : Reaches Form.members (p, g) (r, f)) (hmalformed : f.Malformed r) :
    ∃ q m, Reaches converted (p, n) (q, m) ∧ m.IsLedByPart ∧ m.formAt q = .ok f := by
  have hwritten : WrittenFor (p, n) (p, g) := writtenAt_formAt (reaches_self converted _) hn hg p (readsAt_self p)
  cases writtenFor_of_reaches hf hwritten with
  | led hm hled hform => exact ⟨_, _, hm, hled, hform⟩
  | around hwhole => exact absurd hmalformed hwhole

/-- Whether what is written for a node at a place can be read there: the symbols have nodes, and where lists of calls
and field accesses are converted, they are not malformed. -/
structure Node.Legible (p : Place) (n : Node) (g : Form) : Prop where
  symbols : ∀ name span, g.Contains (.atom (.symbol name) span) → symbolNode? name ≠ none
  lists : ∀ q m r f, Reaches converted (p, n) (q, m) → m.IsLedByPart → m.formAt q = .ok f →
    Reaches Form.members (p, g) (r, f) → ¬f.Malformed r

/-- What is written for a node is converted again if the lists of calls and field accesses are no obstacle. -/
theorem convertible_of_legible (hn : n.NormalAt p) (hg : n.formAt p = .ok g) (h : n.Legible p g) :
    g.Convertible p := by
  have hwritten : WrittenFor (p, n) (p, g) := writtenAt_formAt (reaches_self converted _) hn hg p (readsAt_self p)
  have hiff : g.Convertible p ↔ ∀ w, Reaches Form.members (p, g) w → ¬w.2.Malformed w.1 :=
    iff_forall_reaches (a := (p, g)) (Q := fun w => w.2.Convertible w.1) (fun w => sizeOf w.2)
      (fun hw => sizeOf_elements (mem_elements_of_mem_members hw)) fun w hw => by
        have hcontains := contains_of_reaches hw
        refine convertible_iff_of_sound ((writtenFor_of_reaches hw hwritten).nearlySound.sound fun name span hs => ?_)
        exact h.symbols name span (hcontains.trans hs)
  refine hiff.2 fun w hw hmalformed => ?_
  obtain ⟨q, m, hm, hled, hf⟩ := led_of_malformed hn hg hw hmalformed
  exact h.lists q m w.1 w.2 hm hled hf hw hmalformed

end

end Bilisp
