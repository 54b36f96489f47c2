import TopologyAssist.Proofs.Keystrokes

/-!
Descriptions that are still being typed, and their contexts.

A `Draft` is a description up to the cursor as a tree: closed sections, the open section with its
closed elements, the open element or function block with its fields, and what there is of the last
field. Its text is `Draft.render`. The context of the text is the one that the tree says: the
innermost open block, the last field, and the kinds that the last value of the block's own
selecting field leaves.
-/

namespace TopologyAssist

/-! ### Drafts -/

/-- A field with its value, which may be empty. -/
structure Pair where
  key : List Char
  value : List Char
  isKey : IsKey key
  isValue : IsValue value

/-- What an element of a section holds: fields, and in neurons also the blocks of functions. -/
inductive Entry (code : SectionCode) where
  | pair (p : Pair)
  | block (h : code = .neurons) (slot : FamilyCode) (pairs : List Pair)

/-- A closed element; a comma may follow it. -/
structure ClosedElement (code : SectionCode) where
  entries : List (Entry code)
  comma : Bool

/-- A closed section; a comma may follow it. -/
structure ClosedSection where
  code : SectionCode
  elements : List (ClosedElement code)
  comma : Bool

/-- What there is of the last field. -/
inductive Ending where
  | nothing
  | key (fragment : List Char) (isKey : IsKey fragment)
  | value (name fragment : List Char) (isKey : IsKey name) (isValue : IsValue fragment)

/-- The field is the code of a slot, and its block does not begin yet. -/
def Ending.isSlot : Ending → Prop
  | .value name fragment _ _ => fragment = [] ∧ ∃ f : FamilyCode, f.text.toList = name
  | _ => False

/-- The last field of an element, or the block that is open in it, up to its last field. -/
inductive OpenEnd (code : SectionCode) where
  | element (ending : Ending) (h : code = .neurons → ¬ ending.isSlot)
  | block (h : code = .neurons) (slot : FamilyCode) (pairs : List Pair) (ending : Ending)

/-- A description up to the cursor. A comma follows every entry of the open element and every
field of the open block. -/
structure Draft where
  sections : List ClosedSection
  code : SectionCode
  elements : List (ClosedElement code)
  entries : List (Entry code)
  openEnd : OpenEnd code

/-! ### Their text -/

/-- A comma, or nothing. -/
def commaIf (comma : Bool) : List Char := if comma then [','] else []

/-- Texts with commas between them. -/
def joined (parts : List (List Char)) : List Char := List.intercalate [','] parts

/-- Texts with a comma behind each. -/
def ended (parts : List (List Char)) : List Char := parts.flatMap fun x => x ++ [',']

def Pair.render (p : Pair) : List Char := p.key ++ '=' :: p.value

def Entry.render {code : SectionCode} : Entry code → List Char
  | .pair p => p.render
  | .block _ slot pairs =>
    slot.text.toList ++ '=' :: '(' :: (joined (pairs.map Pair.render) ++ [')'])

def ClosedElement.render {code : SectionCode} (e : ClosedElement code) : List Char :=
  '(' :: (joined (e.entries.map Entry.render) ++ ')' :: commaIf e.comma)

def ClosedSection.render (s : ClosedSection) : List Char :=
  s.code.text.toList ++ '=' :: '[' :: (s.elements.flatMap ClosedElement.render ++
    ']' :: commaIf s.comma)

def Ending.render : Ending → List Char
  | .nothing => []
  | .key fragment _ => fragment
  | .value name fragment _ _ => name ++ '=' :: fragment

namespace Draft

/-- The open section up to the open element, and its parenthesis. -/
def beforeElement (d : Draft) : List Char :=
  d.code.text.toList ++ '=' :: '[' :: (d.elements.flatMap ClosedElement.render ++ ['('])

/-- The open element up to what is open in it. -/
def fields (d : Draft) : List Char := ended (d.entries.map Entry.render)

/-- The open section up to the innermost open block, and its parenthesis. -/
def history (d : Draft) : List Char :=
  match d.openEnd with
  | .element _ _ => d.beforeElement
  | .block _ slot _ _ => d.beforeElement ++ (d.fields ++ (slot.text.toList ++ ['=', '(']))

/-- The innermost open block. -/
def scope (d : Draft) : List Char :=
  match d.openEnd with
  | .element ending _ => d.fields ++ ending.render
  | .block _ _ pairs ending => ended (pairs.map Pair.render) ++ ending.render

/-- The text of a draft. -/
def render (d : Draft) : List Char :=
  d.sections.flatMap ClosedSection.render ++ (d.history ++ d.scope)

/-! ### What they say of the cursor -/

/-- The container of the innermost open block. -/
def container (d : Draft) : Container :=
  match d.openEnd with
  | .element _ _ => .ofSection d.code
  | .block _ slot _ _ => .ofFamily slot

/-- What there is of the last field. -/
def ending (d : Draft) : Ending :=
  match d.openEnd with
  | .element ending _ => ending
  | .block _ _ _ ending => ending

/-- The fields of the innermost open block, without those of blocks in it. -/
def pairs (d : Draft) : List Pair :=
  match d.openEnd with
  | .element _ _ => d.entries.filterMap fun
    | .pair p => some p
    | .block _ _ _ => none
  | .block _ _ pairs _ => pairs

end Draft

namespace Ending

def boundary : Ending → Boundary
  | .nothing => .fieldBoundary
  | .key _ _ => .insideElement
  | .value _ _ _ _ => .newFieldValue

/-- The key whose value is being typed. -/
def field? : Ending → Option String
  | .value name _ _ _ => some (String.ofList name)
  | _ => none

/-- What was typed of the key or value. -/
def fragment : Ending → String
  | .nothing => ""
  | .key fragment _ => String.ofList fragment
  | .value _ fragment _ _ => String.ofList fragment

/-- The value that is being typed, if it is one of the key. -/
def observed (key : List Char) : Ending → List Observed
  | .value name fragment _ _ => if name = key then [.typing fragment] else []
  | _ => []

end Ending

namespace Draft

/-- The last value that the innermost open block gives to the key that tells its kinds apart. -/
def observed? (d : Draft) : Option Observed :=
  (Grammar.standard.selector? d.container).bind fun key =>
    (((d.pairs.filter fun p => p.key = key.toList).map fun p => Observed.complete p.value) ++
      d.ending.observed key.toList).getLast?

/-- The kinds that the innermost open block may have: those with the value of its selecting field,
or with a value that begins so while it is being typed. Without a value it is the kind declared
most recently, and without the field it is any kind. -/
def candidates (d : Draft) : List KindId :=
  let ids := Grammar.standard.kindsIn d.container
  let having (P : List Char → Bool) : List KindId :=
    ids.filter fun id => (Grammar.standard.discriminator? id).any fun x => P x.value.toList
  match d.observed? with
  | none => ids
  | some o =>
    if o.value = [] then
      match (Grammar.standard.lastDeclared? d.container d.history).bind
        (Grammar.standard.exactKind? ids) with
      | some id => [id]
      | none => ids
    else
      match o with
      | .complete v => having fun w => w = v
      | .typing v => having fun w => v <+: w

/-- The context that a draft says, if any kind is possible. -/
def context? (d : Draft) : Option Context :=
  if d.candidates = [] then none
  else some {
    container := some d.container
    boundary := d.ending.boundary
    kind := match d.candidates with
      | [id] => some id
      | _ => none
    candidates := d.candidates
    field := d.ending.field?
    fragment := d.ending.fragment
    needsSeparator := false }

end Draft

/-! ### Texts of drafts are balanced -/

lemma joined_singleton (x : List Char) : joined [x] = x := List.intercalate_singleton

lemma joined_cons_cons (x y : List Char) (parts : List (List Char)) :
    joined (x :: y :: parts) = x ++ ',' :: joined (y :: parts) := by
  rw [joined, List.intercalate_cons_cons, List.append_assoc, List.singleton_append, joined]

lemma nested_joined {depth : Nat} {parts : List (List Char)} (h : ∀ x ∈ parts, Nested depth x) :
    Nested depth (joined parts) := by
  induction parts with
  | nil => exact Nested.nil
  | cons x parts ih =>
    have hx := h x (by simp)
    cases parts with
    | nil =>
      rw [joined_singleton]
      exact hx
    | cons y parts =>
      have hrest := (hx.snoc (c := ',') (by decide)).append
        (ih fun z hz => h z (List.mem_cons_of_mem _ hz))
      rwa [List.append_assoc, List.singleton_append, ← joined_cons_cons] at hrest

lemma nested_ended {depth : Nat} {parts : List (List Char)} (h : ∀ x ∈ parts, Nested depth x) :
    Nested depth (ended parts) := by
  unfold ended
  induction parts with
  | nil => exact Nested.nil
  | cons x parts ih =>
    rw [List.flatMap_cons]
    exact ((h x (by simp)).snoc (by decide)).append (ih fun y hy => h y (by simp [hy]))

lemma fieldsBefore_ended {depth : Nat} {parts : List (List Char)}
    (h : ∀ x ∈ parts, Nested depth x) : FieldsBefore depth (ended parts) := by
  rcases List.eq_nil_or_concat parts with rfl | ⟨init, x, rfl⟩
  · exact Or.inl rfl
  · have hinit : Nested depth (ended init) := nested_ended fun y hy => h y (by simp [hy])
    refine Or.inr ⟨ended init ++ x, hinit.append (h x (by simp)), ?_⟩
    simp [ended]

lemma Pair.plain (p : Pair) : (∀ c ∈ p.render, isPlain c = true) ∧ ',' ∉ p.render :=
  plain_of_assignment p.isKey p.isValue

lemma Pair.nested {depth : Nat} (p : Pair) : Nested depth p.render := Nested.of_plain p.plain.1

lemma nested_pairs {depth : Nat} (pairs : List Pair) :
    ∀ x ∈ pairs.map Pair.render, Nested depth x := by
  intro x hx
  obtain ⟨p, -, rfl⟩ := List.mem_map.mp hx
  exact p.nested

/-- How deep blocks may stand in an element of a section. -/
def SectionCode.depth (code : SectionCode) : Nat := (decide (code = .neurons)).toNat

/-- The block of a slot, one deeper than what is in it. -/
lemma nested_block {depth : Nat} {u : List Char} (hu : Nested depth u) (slot : FamilyCode) :
    Nested (depth + 1) (slot.text.toList ++ '=' :: '(' :: (u ++ [')'])) := by
  have hslot : Nested (depth + 1) (slot.text.toList ++ ['=']) :=
    Nested.of_plain (plain_of_assignment slot.isKey_text isValue_nil).1
  have hgroup := hslot.snoc_group hu
  rwa [List.append_assoc] at hgroup

lemma Entry.nested {code : SectionCode} (e : Entry code) : Nested code.depth e.render := by
  cases e with
  | pair p => exact p.nested
  | block h slot pairs =>
    have hdepth : code.depth = 1 := by rw [h]; rfl
    rw [hdepth]
    exact nested_block (nested_joined (nested_pairs pairs)) slot

lemma nested_entries {code : SectionCode} (entries : List (Entry code)) :
    ∀ x ∈ entries.map Entry.render, Nested code.depth x := by
  intro x hx
  obtain ⟨e, -, rfl⟩ := List.mem_map.mp hx
  exact e.nested

lemma elementRow_elements {code : SectionCode} (elements : List (ClosedElement code)) :
    ElementRow code.depth (elements.flatMap ClosedElement.render) := by
  refine ⟨elements.map ClosedElement.render, fun x hx => ?_, List.flatMap_def⟩
  obtain ⟨e, -, rfl⟩ := List.mem_map.mp hx
  refine ⟨joined (e.entries.map Entry.render), nested_joined (nested_entries e.entries), ?_⟩
  cases hcomma : e.comma with
  | false => exact Or.inl (by simp [ClosedElement.render, commaIf, hcomma])
  | true => exact Or.inr (by simp [ClosedElement.render, commaIf, hcomma])

namespace Ending

lemma plain (e : Ending) : (∀ c ∈ e.render, isPlain c = true) ∧ ',' ∉ e.render := by
  cases e with
  | nothing => simp [render]
  | key fragment h => exact ⟨h.isValue.plain, h.isValue.not_mem_comma⟩
  | value name fragment hkey hv => exact plain_of_assignment hkey hv

lemma assigned?_render (e : Ending) :
    assigned? e.render =
      match e with
      | .value name fragment _ _ => some (name, fragment)
      | _ => none := by
  cases e with
  | nothing => rfl
  | key fragment h =>
    cases hassign : assigned? fragment with
    | none => exact hassign
    | some a =>
      have heq := (assigned?_eq_some_iff.mp hassign).2.2
      exact absurd (by rw [heq]; simp) h.isValue.not_mem_equals
  | value name fragment hkey hv => exact assigned?_eq_some_iff.mpr ⟨hkey, hv, rfl⟩

lemma slotEnd?_eq_none {e : Ending} {s : SectionSpec} (h : ∀ f ∈ s.slots, ¬ e.isSlot)
    {b : List Char} (hb : lastPiece b = e.render) : s.slotEnd? b = none := by
  unfold SectionSpec.slotEnd?
  rw [hb, e.assigned?_render]
  cases e with
  | nothing => rfl
  | key fragment _ => rfl
  | value name fragment _ _ =>
    cases fragment with
    | cons c fragment => rfl
    | nil =>
      refine List.find?_eq_none.mpr fun f hf hname => h f hf ⟨rfl, f, ?_⟩
      simpa using hname

end Ending

/-! ### Where drafts stand -/

/-- The built-in table of each section. -/
lemma exists_section (code : SectionCode) :
    ∃ s ∈ Grammar.standard.sections, s.code = code ∧ s.slotted.toNat = code.depth ∧
      ∀ f, f ∈ s.slots ↔ code = .neurons := by
  have hall : ∀ f : FamilyCode, f ∈ FamilyCode.all := by
    intro f
    cases f <;> decide
  have hslots : ∃ s ∈ Grammar.standard.sections, s.code = code ∧ s.slotted.toNat = code.depth ∧
      ∀ f ∈ FamilyCode.all, f ∈ s.slots ↔ code = .neurons := by
    cases code <;> decide
  obtain ⟨s, hs, hcode, hslotted, h⟩ := hslots
  exact ⟨s, hs, hcode, hslotted, fun f => h f (hall f)⟩

namespace Draft

variable (d : Draft)

/-- The text before the list of the open section. -/
def beforeList : List Char :=
  d.sections.flatMap ClosedSection.render ++ (d.code.text.toList ++ ['='])

lemma standsAt_element :
    ∃ s, s.code = d.code ∧ s.slotted.toNat = d.code.depth ∧ (∀ f, f ∈ s.slots ↔ d.code = .neurons) ∧
      Grammar.standard.StandsAt (d.sections.flatMap ClosedSection.render ++ d.beforeElement) s
        (.element []) := by
  obtain ⟨s, hs, hcode, hslotted, hslots⟩ := exists_section d.code
  refine ⟨s, hcode, hslotted, hslots, hs, d.beforeList,
    d.elements.flatMap ClosedElement.render ++ ['('], ?_, ?_, ?_⟩
  · rw [hcode]
    exact List.suffix_append _ _
  · have hrow := elementRow_elements d.elements
    rw [← hslotted] at hrow
    rw [scan_append, scan, Level.run_list_row hrow, Option.bind_some, Level.run_singleton,
      Level.step_list_open]
  · simp [beforeList, beforeElement]

/-- The tail of a text begins with the code of the open section. -/
lemma sectionTail_beforeElement :
    Grammar.standard.sectionTail (d.sections.flatMap ClosedSection.render ++ d.beforeElement) =
      d.beforeElement := by
  have hr : '[' ∉ d.elements.flatMap ClosedElement.render ++ ['('] := by
    simp [(elementRow_elements d.elements).not_mem_square.1]
  have hsplit : d.sections.flatMap ClosedSection.render ++ d.beforeElement =
      d.beforeList ++ '[' :: (d.elements.flatMap ClosedElement.render ++ ['(']) := by
    simp [beforeList, beforeElement]
  obtain ⟨s, hs, hcode, -, -⟩ := exists_section d.code
  have hopens : s.code.opens d.beforeList := by
    rw [hcode]
    exact List.suffix_append _ _
  rw [hsplit, Grammar.sectionTail_of_opens hs hopens hr, hcode, beforeElement]

lemma lastPiece_scope : lastPiece d.scope = d.ending.render := by
  unfold scope ending
  cases d.openEnd with
  | element ending h =>
    exact (fieldsBefore_ended (nested_entries d.entries)).lastPiece ending.plain.2
  | block h slot pairs ending =>
    have hfields : FieldsBefore 0 (ended (pairs.map Pair.render)) :=
      fieldsBefore_ended (nested_pairs pairs)
    exact hfields.lastPiece ending.plain.2

/-- **The innermost open block is where the text ends.** -/
theorem openAt_render :
    Grammar.standard.OpenAt d.render d.container d.scope ∧
      Grammar.standard.sectionTail d.render = d.history ++ d.scope := by
  obtain ⟨s, hcode, hslotted, hslots, hstands⟩ := d.standsAt_element
  have htail := d.sectionTail_beforeElement
  have hpiece := d.lastPiece_scope
  have hfields : FieldsBefore s.slotted.toNat d.fields := by
    rw [hslotted]
    exact fieldsBefore_ended (nested_entries d.entries)
  unfold render history container scope ending at *
  cases hopen : d.openEnd with
  | element ending h =>
    simp only [hopen] at hpiece ⊢
    have hrun := Level.run_element_nested (b := [])
      (hfields.nested.append (Nested.of_plain ending.plain.1))
    have hend := Ending.slotEnd?_eq_none (fun f hf => h ((hslots f).mp hf)) hpiece
    rw [← List.append_assoc]
    refine ⟨Or.inl ⟨s, hstands.run hrun, hend, by rw [hcode]⟩, ?_⟩
    rw [hstands.sectionTail_append hrun, htail]
  | block h slot pairs ending =>
    simp only [hopen] at hpiece ⊢
    have hone : s.slotted = true := by
      rw [h] at hslotted
      cases hs : s.slotted with
      | true => rfl
      | false => rw [hs] at hslotted; cases hslotted
    have hslot : Nested s.slotted.toNat (d.fields ++ (slot.text.toList ++ ['='])) :=
      hfields.nested.append (Nested.of_plain (plain_of_assignment slot.isKey_text isValue_nil).1)
    have hinner : ∀ c ∈ ended (pairs.map Pair.render) ++ ending.render, isPlain c = true :=
      Nested.zero_iff.mp ((nested_ended (nested_pairs pairs)).append
        (Nested.of_plain ending.plain.1))
    have hrun : Level.run s.slotted (.element []) ((d.fields ++ (slot.text.toList ++ ['='])) ++
        '(' :: (ended (pairs.map Pair.render) ++ ending.render)) =
        some (.block (d.fields ++ (slot.text.toList ++ ['=']))
          (ended (pairs.map Pair.render) ++ ending.render)) := by
      rw [Level.run_append, Level.run_element_nested hslot, hone]
      simp only [Option.bind_some, List.nil_append, Level.run, Level.step_element_open,
        Level.run_block_plain hinner]
    have hend := (SectionSpec.slotEnd?_eq_some_iff hslot).mpr
      ⟨(hslots slot).mpr h, d.fields, hfields, rfl⟩
    have htext : d.beforeElement ++ (d.fields ++ (slot.text.toList ++ ['=', '('])) ++
        (ended (pairs.map Pair.render) ++ ending.render) =
        d.beforeElement ++ ((d.fields ++ (slot.text.toList ++ ['='])) ++
          '(' :: (ended (pairs.map Pair.render) ++ ending.render)) := by simp
    rw [htext, ← List.append_assoc]
    refine ⟨Or.inr ⟨s, _, slot, hstands.run hrun, hend, rfl⟩, ?_⟩
    rw [hstands.sectionTail_append hrun, htail]

end Draft

/-! ### The kinds that a draft leaves -/

lemma ofResolution_ofKinds (c : Container) (boundary : Boundary) (ids : List KindId) :
    Context.ofResolution c boundary (Resolution.ofKinds ids) =
      ⟨some c, boundary, (match ids with | [id] => some id | _ => none), ids, none, "", false⟩ := by
  match ids with
  | [] => rfl
  | [_] => rfl
  | _ :: _ :: _ => rfl

/-- A value as it is found in a text. -/
def Observed.assignment : Observed → Assignment
  | .complete v => ⟨v, true⟩
  | .typing v => ⟨v, false⟩

lemma drop_assignment (key v : List Char) :
    (key ++ '=' :: v).drop (key ++ ['=']).length = v := by
  rw [show key ++ '=' :: v = (key ++ ['=']) ++ v by simp, List.drop_left]

section Values

variable {key : List Char} (hkey : IsKey key)
include hkey

lemma assignment_prefix_iff {name v : List Char} (hname : IsKey name) :
    key ++ ['='] <+: name ++ '=' :: v ↔ name = key := by
  constructor
  · intro h
    exact (hkey.eq_of_prefix hname h).symm
  · rintro rfl
    exact ⟨v, by simp⟩

/-- The values of completed fields are complete. -/
lemma assignments_ended (pairs : List Pair) (u : List Char) :
    assignments key (ended (pairs.map Pair.render) ++ u) =
      ((pairs.filter fun p => p.key = key).map fun p => ⟨p.value, true⟩) ++ assignments key u := by
  induction pairs with
  | nil => rfl
  | cons p pairs ih =>
    obtain ⟨hplain, hcomma⟩ := plain_of_assignment p.isKey p.isValue
    have hsplit : ended ((p :: pairs).map Pair.render) ++ u =
        p.render ++ ',' :: (ended (pairs.map Pair.render) ++ u) := by
      simp [ended]
    rw [hsplit, Pair.render, assignments_piece_comma hkey hplain hcomma, ih]
    by_cases hp : p.key = key
    · have hdrop := drop_assignment key p.value
      rw [if_pos ((assignment_prefix_iff hkey p.isKey).mpr hp)]
      simp only [hp, hdrop, List.filter_cons, decide_true, if_true, List.map_cons,
        List.cons_append, List.nil_append]
    · rw [if_neg fun h => hp ((assignment_prefix_iff hkey p.isKey).mp h)]
      simp [hp]

lemma assignments_ending (e : Ending) :
    assignments key e.render = (e.observed key).map Observed.assignment := by
  obtain ⟨hplain, hcomma⟩ := e.plain
  rw [assignments_piece hkey hplain hcomma]
  cases e with
  | nothing => simp [Ending.render, Ending.observed]
  | key fragment h =>
    rw [if_neg]
    · rfl
    · rintro ⟨t, ht⟩
      exact h.isValue.not_mem_equals (by rw [Ending.render] at ht; rw [← ht]; simp)
  | value name v hname hv =>
    simp only [Ending.render, Ending.observed, assignment_prefix_iff hkey hname]
    split_ifs with h
    · rw [h, drop_assignment]
      rfl
    · rfl

end Values

namespace Grammar

/-- In the built-in tables no value of a selecting key begins with another one. -/
lemma standard_values (c : Container) :
    (standard.kindsIn c).Nodup ∧ ∀ id ∈ standard.kindsIn c, ∀ x ∈ standard.discriminator? id,
      ∀ id' ∈ standard.kindsIn c, ∀ x' ∈ standard.discriminator? id',
        x.value.toList <+: x'.value.toList → id = id' := by
  revert c
  rintro (c | c) <;> cases c <;> decide

lemma standard_selector_of_single (c : Container) (h : (standard.kindsIn c).length = 1) :
    standard.selector? c = none := by
  revert c
  rintro (c | c) <;> cases c <;> decide

/-- The kind that a value names is the only one that it may become. -/
lemma filter_accepts_of_exactKind? {c : Container} {o : Observed} {id : KindId}
    (h : standard.exactKind? (standard.kindsIn c) o.value = some id) (ho : o.value ≠ []) :
    ((standard.kindsIn c).filter fun id =>
      (standard.discriminator? id).any fun x => x.accepts o) = [id] := by
  obtain ⟨hnodup, hdistinct⟩ := standard_values c
  have hid := List.mem_of_find?_eq_some h
  have hfound := List.find?_some h
  obtain ⟨x, hx, hvalue⟩ := any_discriminator.mp hfound
  simp only [Discriminator.accepts, beq_iff_eq] at hvalue
  have honly : ∀ id' ∈ standard.kindsIn c,
      (standard.discriminator? id').any (fun x => x.accepts o) = decide (id' = id) := by
    intro id' hid'
    rw [Bool.eq_iff_iff, any_discriminator, decide_eq_true_iff]
    constructor
    · rintro ⟨x', hx', hacc⟩
      refine (hdistinct id hid x hx id' hid' x' hx' ?_).symm
      rw [hvalue]
      cases o with
      | complete v =>
        simp only [Discriminator.accepts, beq_iff_eq] at hacc
        exact hacc ▸ List.prefix_rfl
      | typing v =>
        simp only [Discriminator.accepts, Bool.and_eq_true, List.isPrefixOf_iff_prefix] at hacc
        exact hacc.2
    · rintro rfl
      refine ⟨x, hx, ?_⟩
      cases o with
      | complete v => simpa [Discriminator.accepts, Observed.value] using hvalue
      | typing v =>
        obtain rfl : x.value.toList = v := hvalue
        simpa [Discriminator.accepts, List.isPrefixOf_iff_prefix, Observed.value] using ho
  rw [List.filter_congr honly, List.filter_eq, List.count_eq_one_of_mem hnodup hid]
  rfl

/-- **The kinds that a value leaves** are those whose value it is or may become. -/
lemma select_standard (c : Container) {o : Observed} (ho : o.value ≠ []) :
    standard.select (standard.kindsIn c) o =
      Resolution.ofKinds ((standard.kindsIn c).filter fun id =>
        (standard.discriminator? id).any fun x => x.accepts o) := by
  unfold select
  cases h : standard.exactKind? (standard.kindsIn c) o.value with
  | some id => rw [filter_accepts_of_exactKind? h ho, Resolution.ofKinds]
  | none => rfl

end Grammar

namespace Draft

open Grammar

variable (d : Draft)

/-- Without blocks in it, the innermost open block is its fields. -/
lemma scope_eq (h : d.container ≠ .ofSection .neurons) :
    d.scope = ended (d.pairs.map Pair.render) ++ d.ending.render := by
  unfold scope pairs ending container fields at *
  cases hopen : d.openEnd with
  | block _ slot pairs ending => rfl
  | element ending _ =>
    simp only [hopen, ne_eq, Container.ofSection.injEq] at h ⊢
    congr 2
    induction d.entries with
    | nil => rfl
    | cons e entries ih =>
      cases e with
      | pair p => simp [Entry.render, ih]
      | block hcode => exact absurd hcode h

/-- What the last value of the block leaves, with several kinds. -/
lemma settle_observed (hlen : 1 < (standard.kindsIn d.container).length) (key : List Char) :
    standard.settle d.container key d.history [] (d.observed?.map Observed.assignment) =
      Resolution.ofKinds d.candidates := by
  have hall := Resolution.ofKinds_of_several hlen
  rw [candidates]
  cases d.observed? with
  | none => exact hall.symm
  | some o =>
    by_cases hv : o.value = []
    · have hempty : o.assignment.value.isEmpty = true := by
        cases o <;> simpa [Observed.assignment, Observed.value] using hv
      simp only [Option.map_some, settle, if_pos hempty, if_pos hv, resolveEmpty]
      cases (standard.lastDeclared? d.container d.history).bind
        (standard.exactKind? (standard.kindsIn d.container)) with
      | some id => rfl
      | none => exact hall.symm
    · simp only [Option.map_some, if_neg hv]
      cases o with
      | complete v =>
        have hne : ¬ v.isEmpty = true := by simpa [Observed.value] using hv
        have hsame (x : Discriminator) :
            x.accepts (.complete v) = decide (x.value.toList = v) := by
          rw [Bool.eq_iff_iff]
          simp [Discriminator.accepts]
        simp only [Observed.assignment, settle, if_neg hne, if_true]
        simp only [select_standard d.container hv, hsame]
      | typing v =>
        have hne : ¬ v.isEmpty = true := by simpa [Observed.value] using hv
        have hsame (x : Discriminator) :
            x.accepts (.typing v) = decide (v <+: x.value.toList) := by
          rw [Bool.eq_iff_iff, Discriminator.accepts, Bool.and_eq_true,
            List.isPrefixOf_iff_prefix, decide_eq_true_iff]
          simp [hne]
        simp only [Observed.assignment, settle, if_neg hne, Bool.false_eq_true, if_false]
        simp only [select_standard d.container hv, hsame]

/-- **The kinds left by the text are those left by the draft.** -/
theorem resolveAt_scope :
    standard.resolveAt d.container (d.history ++ d.scope) d.scope [] =
      Resolution.ofKinds d.candidates := by
  rcases d.openAt_render.1.single_or_plain standard_tidy with ⟨id, hid⟩ | ⟨hlen, hplain⟩
  · have hselector := standard_selector_of_single d.container (by rw [hid]; rfl)
    rw [resolveAt_of_single hid, candidates, observed?, hselector, hid]
    rfl
  · obtain ⟨key, hselector, hkey⟩ := standard_tidy.selector_of_several d.container hlen
    have hneurons : d.container ≠ .ofSection .neurons := by
      intro h
      rw [h] at hlen
      exact absurd hlen (by decide)
    have hlast : (assignments key.toList d.scope).getLast? =
        d.observed?.map Observed.assignment := by
      rw [d.scope_eq hneurons, assignments_ended hkey, assignments_ending hkey, observed?,
        hselector, Option.bind_some, ← List.getLast?_map, List.map_append, List.map_map]
      rfl
    rw [resolveAt_of_several hlen hselector hplain, textBefore_append, hlast]
    exact d.settle_observed hlen key.toList

lemma openContext_scope :
    standard.openContext d.container (d.history ++ d.scope) d.scope [] = {
      Context.ofResolution d.container d.ending.boundary (Resolution.ofKinds d.candidates) with
      field := d.ending.field?
      fragment := d.ending.fragment } := by
  rw [← resolveAt_scope]
  have hpiece := d.lastPiece_scope
  have hassigned := d.ending.assigned?_render
  cases he : d.ending with
  | nothing =>
    rw [he] at hpiece
    rw [openContext_of_lastPiece hpiece]
    cases standard.resolveAt d.container (d.history ++ d.scope) d.scope [] <;> rfl
  | value name fragment hname hv =>
    rw [he] at hpiece hassigned
    unfold openContext
    rw [hpiece, hassigned]
    rfl
  | key fragment hkey =>
    rw [he] at hpiece hassigned
    have hend : endsWith ')' fragment = false := hkey.isValue.endsWith_close
    have hsep : endsWith ')' d.scope = false := by
      rw [← endsWith_lastPiece (by decide), hpiece]
      exact hend
    have hne : fragment.isEmpty = false := by simpa using hkey.1
    unfold openContext
    rw [hpiece, hassigned]
    simp only [Ending.render, hsep, hend, hne, Ending.boundary, Ending.fragment, Ending.field?]
    cases standard.resolveAt d.container (d.history ++ d.scope) d.scope [] <;> rfl

/-- **Reading undoes rendering.** The context of a draft's text is the innermost open block of the
draft, with what there is of its last field and the kinds that its own fields leave, and the text
has no context exactly if they leave no kind. -/
theorem classify_render (d : Draft) : standard.classify d.render [] = d.context? := by
  obtain ⟨hopen, htail⟩ := d.openAt_render
  rw [hopen.classify standard_tidy.toOneTableEach, htail, d.openContext_scope,
    ofResolution_ofKinds, withKinds, Option.filter_some, context?]
  simp

-- the open block of a slot, behind a closed neuron
example :
    render ⟨[], .neurons, [⟨[.pair ⟨['n', 'm'], ['a'], by decide, by decide⟩], true⟩], [],
      .block rfl .weightDecay [] (.value ['f', 'n', 'c'] ['e'] (by decide) (by decide))⟩ =
      "NRN=[(nm=a),(WDF=(fnc=e".toList := by
  decide

end Draft

end TopologyAssist
