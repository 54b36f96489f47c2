import TopologyAssist.Proofs.Snippets
import TopologyAssist.Proofs.Tables
import TopologyAssist.Proofs.Typing

/-!
Completions that are taken keep the text in the grammar.

For the built-in tables, every item that is offered where nothing is typed yet leads to a context
again, and the context is the one that the item announces: a section to its empty list, a template
to the place behind the element, a field to its value, a value of the selecting key to its kind.
-/

namespace TopologyAssist

namespace CompletionItem

/-- The text that is inserted when the item is taken. -/
def expanded (item : CompletionItem) : List Char := Snippet.expand item.text

/-- The text that is inserted up to where the cursor is then. -/
def upToStop (item : CompletionItem) : List Char :=
  Snippet.expandFrom .text (Snippet.beforeStop item.text.toList)

end CompletionItem

namespace Grammar

open Snippet

/-! ### The built-in tables -/

lemma standard_writable : ∀ x ∈ standard.kinds, ∀ f ∈ x.2.fields, f.Writable := by
  decide +kernel

/-- Each kind has its own value of the selecting key. -/
lemma standard_discriminator (c : Container) :
    ∀ id ∈ standard.kindsIn c, ∀ d ∈ standard.discriminator? id,
      standard.selector? c = some d.key ∧ IsLiteral d.value ∧
        standard.exactKind? (standard.kindsIn c) d.value.toList = some id := by
  revert c
  rintro (c | c) <;> cases c <;> decide +kernel

/-- Only neurons have blocks, and the selecting field of a kind has the value of the kind. -/
lemma standard_kind (c : Container) :
    ∀ id ∈ standard.kindsIn c, ∀ k ∈ standard.kind? id,
      (k.slots = [] ∨ c = .ofSection .neurons) ∧
      ∀ f ∈ k.fields, standard.selector? c = some f.name →
        ∃ d ∈ k.discriminator, f.validValues = [d.value] ∧ f.unit = none := by
  revert c
  rintro (c | c) <;> cases c <;> decide +kernel

lemma writable_of_kind? {id : KindId} {k : ElementKind} (h : standard.kind? id = some k) :
    ∀ f ∈ k.fields, f.Writable := by
  obtain ⟨c, hk, -⟩ := standard_distinct.kind?_eq_some_iff.mp h
  exact standard_writable (c, k) hk

lemma writable_of_defaultKind? (c : Container) (k : ElementKind)
    (h : standard.defaultKind? c = some k) : ∀ f ∈ k.fields, f.Writable := by
  obtain ⟨id, -, hk⟩ := Option.bind_eq_some_iff.mp h
  exact writable_of_kind? hk

/-! ### Sections -/

lemma toList_separator (ctx : Context) : ctx.separator.toList = commaIf ctx.needsSeparator := by
  unfold Context.separator commaIf
  split_ifs <;> rfl

lemma commaIf_not_mem_dollar (comma : Bool) : '$' ∉ commaIf comma := by cases comma <;> decide

/-- A section that is opened stands at its empty list. -/
lemma standsAt_open (p : List Char) {s : SectionSpec} (hs : s ∈ standard.sections) :
    standard.StandsAt (p ++ (s.code.text.toList ++ ['=', '['])) s (.list false) := by
  refine ⟨hs, p ++ (s.code.text.toList ++ ['=']), [], List.suffix_append _ _, rfl, by simp⟩

/-- **A section that is taken** is empty, and the cursor is in its list. -/
theorem accept_section {ctx : Context} {item : CompletionItem}
    (hitem : item ∈ Completion.sectionItems standard ctx) (p lookahead : List Char) :
    ∃ s ∈ standard.sections, item.label = s.code.text ∧
      standard.classify (p ++ item.upToStop) lookahead =
        some (standard.blankContext (.ofSection s.code) .newElement false) ∧
      standard.classify (p ++ item.expanded) lookahead =
        some (Context.betweenSections [] true) := by
  obtain ⟨s, hs, rfl⟩ := List.mem_map.mp hitem
  refine ⟨s, hs, rfl, ?_⟩
  have hcode : '$' ∉ commaIf ctx.needsSeparator ++ (s.code.text.toList ++ ['=', '[']) := by
    have : '$' ∉ s.code.text.toList := by cases s.code <;> decide
    simp [commaIf_not_mem_dollar, this]
  have htext : (ctx.separator ++ s.code.text ++ "=[$0]").toList =
      (commaIf ctx.needsSeparator ++ (s.code.text.toList ++ ['=', '['])) ++
        '$' :: '0' :: [']'] := by
    simp [toList_separator]
  have hstands := standsAt_open (p ++ commaIf ctx.needsSeparator) hs
  rw [List.append_assoc] at hstands
  constructor
  · have hcut := expandFrom_text hcode []
    rw [List.append_nil, expandFrom, List.append_nil] at hcut
    rw [CompletionItem.upToStop, CompletionItem.text, Option.getD_some, htext,
      beforeStop_append hcode, hcut]
    exact hstands.classify_list standard_tidy lookahead
  · have hend := hstands.classify_between standard_tidy.toOneTableEach (Or.inl rfl) (w := [])
      (by simp) lookahead
    rw [List.nil_append, endsWith_append_singleton] at hend
    rw [CompletionItem.expanded, CompletionItem.text, Option.getD_some, expand, htext,
      expandFrom_text hcode, ← List.append_assoc]
    exact hend

/-! ### Elements -/

lemma expands_element {separator inner : String} (hsep : '$' ∉ separator.toList) {u : List Char}
    (hu : Expands inner u) :
    Expands (separator ++ "(" ++ inner ++ ")") (separator.toList ++ '(' :: (u ++ [')'])) := by
  have hopen : Expands "(" ['('] := expands_of_not_mem (by decide)
  have hclose : Expands ")" [')'] := expands_of_not_mem (by decide)
  have hall := (((expands_of_not_mem hsep).append hopen).append hu).append hclose
  simpa only [List.append_assoc, List.cons_append, List.nil_append] using hall

lemma neurons_slotted : ∀ s ∈ standard.sections, s.code = .neurons → s.slotted.toNat = 1 := by
  decide

/-- The text of a template of a container: what stands before it, and a block. -/
lemma exists_expanded_element {o : Options} {ctx : Context} {c : Container}
    {boundary : Boundary} {needsSeparator : Bool}
    (hctx : ctx = standard.blankContext c boundary needsSeparator) {item : CompletionItem}
    (hitem : item ∈ Completion.elementItems standard o ctx c) {depth : Nat}
    (hdepth : c = .ofSection .neurons → depth = 1) :
    ∃ u, Nested depth u ∧ item.expanded =
      (match c with
        | .ofSection _ => commaIf needsSeparator
        | .ofFamily _ => []) ++ '(' :: (u ++ [')']) := by
  obtain ⟨k, hk, hitem⟩ := List.mem_flatMap.mp hitem
  obtain ⟨useDefaults, -, rfl⟩ := List.mem_map.mp hitem
  obtain ⟨id, hid, hkind⟩ := List.mem_filterMap.mp hk
  have hid : id ∈ standard.kindsIn c := by
    rw [hctx] at hid
    exact hid
  have hslots := ((standard_kind c id hid k hkind).1).imp_right hdepth
  obtain ⟨u, hu, hn⟩ := Template.balanced_element writable_of_defaultKind?
    (writable_of_kind? hkind) hslots useDefaults 1
  refine ⟨u, hn, ?_⟩
  rw [CompletionItem.expanded, CompletionItem.text]
  cases c with
  | ofSection code =>
    have hsep : ctx.separator.toList = commaIf needsSeparator := by
      rw [toList_separator, hctx]
      rfl
    have hdollar : '$' ∉ ctx.separator.toList := by
      rw [hsep]
      exact commaIf_not_mem_dollar needsSeparator
    rw [← hsep]
    exact (expands_element hdollar hu).expand
  | ofFamily f =>
    have hempty : '$' ∉ "".toList := by decide
    exact (expands_element hempty hu).expand

/-- **A template that is taken in a list** is one more closed element. -/
theorem accept_element {p : List Char} {s : SectionSpec} {closed : Bool}
    (hs : standard.StandsAt p s (.list closed)) {o : Options} {item : CompletionItem}
    (hitem : item ∈ Completion.elementItems standard o
      (standard.blankContext (.ofSection s.code) .newElement closed) (.ofSection s.code))
    (lookahead : List Char) :
    standard.classify (p ++ item.expanded) lookahead =
      some (standard.blankContext (.ofSection s.code) .newElement true) := by
  obtain ⟨u, hu, htext⟩ := exists_expanded_element rfl hitem
    fun h => neurons_slotted s hs.1 (Container.ofSection.inj h)
  have helement : ∀ closed, Level.run s.slotted (.list closed) ('(' :: (u ++ [')'])) =
      some (.list true) := by
    intro closed
    rw [Level.run_list_item ⟨u, hu, Or.inl rfl⟩, ← List.cons_append, endsWith_append_singleton]
    rfl
  have hrun : Level.run s.slotted (.list closed) item.expanded = some (.list true) := by
    rw [htext]
    cases closed with
    | false => exact helement false
    | true =>
      rw [commaIf, if_pos rfl, Level.run_append, Level.run_singleton, Level.step_list_comma]
      exact helement false
  exact (hs.run hrun).classify_list standard_tidy lookahead

/-- Text that closes a block of the open element. -/
lemma StandsAt.classify_closed_block {p b : List Char} {s : SectionSpec}
    (hs : standard.StandsAt p s (.element b)) (hslotted : s.slotted = true) {u : List Char}
    (hu : Nested 1 (u ++ [')'])) (lookahead : List Char) :
    standard.classify (p ++ (u ++ [')'])) lookahead =
      some (standard.blankContext (.ofSection .neurons) .fieldBoundary true) := by
  have hrun : Level.run s.slotted (.element b) (u ++ [')']) =
      some (.element ((b ++ u) ++ [')'])) := by
    rw [List.append_assoc b, Level.run_element_nested (by rwa [hslotted])]
  have hend : s.slotEnd? ((b ++ u) ++ [')']) = none := by
    apply SectionSpec.slotEnd?_of_assigned
    rw [lastPiece_snoc (by decide)]
    exact assigned?_close _
  have hopen : standard.OpenAt (p ++ (u ++ [')'])) (.ofSection s.code) ((b ++ u) ++ [')']) :=
    Or.inl ⟨s, hs.run hrun, hend, rfl⟩
  rw [hopen.classify_closed_block standard_tidy
    (standard_tidy.single_of_slotted s hs.1 hslotted), standard_slotted s hs.1 hslotted]

/-- **A template that is taken as a function block** closes the block of its slot. -/
theorem accept_block {p b : List Char} {s : SectionSpec} {f : FamilyCode}
    (hs : standard.StandsAt p s (.element b)) (hend : s.slotEnd? b = some f) {o : Options}
    {item : CompletionItem}
    (hitem : item ∈ Completion.elementItems standard o
      (standard.blankContext (.ofFamily f) .newElement false) (.ofFamily f))
    (lookahead : List Char) :
    standard.classify (p ++ item.expanded) lookahead =
      some (standard.blankContext (.ofSection .neurons) .fieldBoundary true) := by
  have hfamily : Container.ofFamily f = .ofSection .neurons → 0 = 1 := fun h => nomatch h
  obtain ⟨u, hu, htext⟩ := exists_expanded_element rfl hitem hfamily
  have hgroup : Nested 1 (('(' :: u) ++ [')']) := hu.group Nested.nil
  rw [htext]
  exact hs.classify_closed_block (SectionSpec.slotted_of_slotEnd? hend) hgroup lookahead

/-! ### Where a field may begin -/

section Boundary

variable {p b tail lookahead : List Char} {c : Container} {o : Options} {item : CompletionItem}

/-- Behind the separator that is asked for, a field may begin. -/
lemma lastPiece_separator {ctx : Context} (hctx : ctx = standard.openContext c tail b lookahead)
    (hvalue : ctx.boundary ≠ .newFieldValue) (hfragment : ctx.fragment = "") :
    ctx.needsSeparator = endsWith ')' b ∧ lastPiece (b ++ commaIf ctx.needsSeparator) = [] := by
  subst hctx
  unfold openContext at *
  cases hassign : assigned? (lastPiece b) with
  | some a => simp [hassign] at hvalue
  | none =>
    simp only [hassign] at hfragment ⊢
    refine ⟨trivial, ?_⟩
    cases hsep : endsWith ')' b with
    | true => exact lastPiece_comma b
    | false =>
      rw [endsWith_lastPiece (by decide), hsep] at hfragment
      rw [commaIf, if_neg (by decide), List.append_nil]
      by_contra hne
      simp [hne] at hfragment

lemma endsWith_close_of_plain (hplain : ∀ x ∈ b, isPlain x = true) :
    endsWith ')' b = false :=
  endsWith_eq_false fun hmem => absurd (hplain _ hmem) (by decide)

lemma resolveAt_of_kind {id : KindId}
    (h : (standard.openContext c tail b lookahead).kind = some id) :
    standard.resolveAt c tail b lookahead = .resolved id := by
  rw [openContext_kind] at h
  cases hr : standard.resolveAt c tail b lookahead with
  | resolved id' =>
    rw [hr] at h
    rw [Option.some.inj h]
  | ambiguous ids => rw [hr] at h; cases h
  | rejected => rw [hr] at h; cases h

end Boundary

lemma isLiteral_render {f : FieldSpec} (hf : f.Writable) (o : Options) {v : String}
    (hv : v ∈ f.validValues ++ f.defaultValue.toList) : IsLiteral (Completion.render o f v) := by
  unfold Completion.render
  split_ifs
  · exact (hf.literal v hv).2
  · exact (hf.literal v hv).1

/-- What a field offers: its name and a value that may be inserted as it is. -/
lemma mem_fieldItems {o : Options} {f : FieldSpec} (hf : f.Writable) {item : CompletionItem}
    (h : item ∈ Completion.fieldItems o f) :
    ∃ value : String, item.label = f.name ++ "=" ++ value ∧ item.text = item.label ∧
      IsValue value.toList ∧ '$' ∉ value.toList ∧
      ∀ only, f.validValues = [only] → f.unit = none → value = only := by
  unfold Completion.fieldItems at h
  split_ifs at h with hempty
  · have hnone : ∀ only, f.validValues ≠ [only] := by
      intro only heq
      rw [heq] at hempty
      cases hempty
    cases hdefault : f.defaultValue with
    | none =>
      rw [hdefault] at h
      obtain rfl := List.mem_singleton.mp h
      refine ⟨"", by simp, rfl, isValue_nil, List.not_mem_nil, fun only heq => ?_⟩
      exact absurd heq (hnone only)
    | some v =>
      rw [hdefault] at h
      obtain rfl := List.mem_singleton.mp h
      obtain ⟨-, hv, hd⟩ := isLiteral_render hf o (v := v) (by simp [hdefault])
      exact ⟨_, rfl, rfl, hv, hd, fun only heq => absurd heq (hnone only)⟩
  · obtain ⟨v, hmem, rfl⟩ := List.mem_map.mp h
    obtain ⟨-, hv, hd⟩ := isLiteral_render hf o (v := v) (by simp [hmem])
    refine ⟨_, rfl, rfl, hv, hd, fun only heq hunit => ?_⟩
    rw [heq] at hmem
    rw [List.mem_singleton.mp hmem]
    unfold Completion.render FieldSpec.formatValue
    rw [hunit]
    split_ifs <;> rfl

lemma expanded_of_separator {ctx : Context} {item : CompletionItem} {s : String} {u : List Char}
    (htext : item.text = ctx.separator ++ s) (hu : Expands s u) :
    item.expanded = commaIf ctx.needsSeparator ++ u := by
  have hsep : Expands ctx.separator (commaIf ctx.needsSeparator) := by
    rw [← toList_separator]
    refine expands_of_not_mem ?_
    rw [toList_separator]
    exact commaIf_not_mem_dollar _
  rw [CompletionItem.expanded, htext]
  exact (hsep.append hu).expand

lemma expands_assignment {name value : String} (hname : IsKey name.toList)
    (hvalue : '$' ∉ value.toList) :
    Expands (name ++ "=" ++ value) (name.toList ++ '=' :: value.toList) := by
  have hequals : Expands "=" ['='] := expands_of_not_mem (by decide)
  have hall := ((expands_of_not_mem hname.not_mem_dollar).append hequals).append
    (expands_of_not_mem hvalue)
  simpa only [List.append_assoc, List.cons_append, List.nil_append] using hall

lemma plain_commaIf (comma : Bool) : ∀ x ∈ commaIf comma, isPlain x = true := by
  cases comma <;> exact List.all_eq_true.mp (by decide)

section Fields

variable {p b lookahead : List Char} {c : Container} {ctx : Context} (h : standard.OpenAt p c b)
  (hctx : ctx = standard.openContext c (standard.sectionTail p) b lookahead)
  (hvalue : ctx.boundary ≠ .newFieldValue) (hfragment : ctx.fragment = "")
include h hctx hvalue hfragment

/-- With several kinds no separator is asked for where a field may begin. -/
lemma lastPiece_of_several (hlen : 1 < (standard.kindsIn c).length) :
    (∀ x ∈ b, isPlain x = true) ∧ ctx.needsSeparator = false ∧ lastPiece b = [] := by
  have hplain := h.plain_of_several standard_tidy hlen
  obtain ⟨hsep, hpiece⟩ := lastPiece_separator hctx hvalue hfragment
  rw [endsWith_close_of_plain hplain] at hsep
  rw [hsep, commaIf, if_neg (by decide), List.append_nil] at hpiece
  exact ⟨hplain, hsep, hpiece⟩

section Settled

variable {id : KindId} {k : ElementKind} {f : FieldSpec} {value : String}
  (hkind : ctx.kind = some id) (hid : id ∈ standard.kindsIn c) (hk : standard.kind? id = some k)
  (hf : f ∈ k.fields) (hv : IsValue value.toList)
  (honly : ∀ only, f.validValues = [only] → f.unit = none → value = only)
include hkind hid hk hf hv honly

/-- A field that is typed where the kind is settled keeps it: the selecting field has the value of
the kind, and no other field decides. -/
lemma resolveAt_field :
    standard.resolveAt c
        (standard.sectionTail p ++
          (commaIf ctx.needsSeparator ++ (f.name.toList ++ '=' :: value.toList)))
        (b ++ (commaIf ctx.needsSeparator ++ (f.name.toList ++ '=' :: value.toList))) lookahead =
      standard.resolveAt c (standard.sectionTail p) b lookahead := by
  have hname := (writable_of_kind? hk f hf).isKey
  obtain ⟨hplain, hcomma⟩ := plain_of_assignment hname hv
  rcases h.single_or_plain standard_tidy with ⟨id', hid'⟩ | ⟨hlen, hb⟩
  · rw [resolveAt_of_single hid', resolveAt_of_single hid']
  · obtain ⟨-, hsep, hpiece⟩ := lastPiece_of_several h hctx hvalue hfragment hlen
    obtain ⟨key, hselector, hkey⟩ := standard_tidy.selector_of_several c hlen
    have hp : lastPiece (b ++ (f.name.toList ++ '=' :: value.toList)) =
        f.name.toList ++ '=' :: value.toList := by
      rw [lastPiece_append_of_not_mem hcomma, hpiece, List.nil_append]
    rw [hsep, commaIf, if_neg (by decide), List.nil_append]
    by_cases hsame : key = f.name
    · subst hsame
      obtain ⟨d, hd, hvalues, hunit⟩ := (standard_kind c id hid k hk).2 f hf hselector
      have hdisc : d ∈ standard.discriminator? id := by
        rw [discriminator?, hk]
        exact hd
      obtain ⟨-, hliteral, hexact⟩ := standard_discriminator c id hid d hdisc
      obtain rfl := honly d.value hvalues hunit
      rw [hctx] at hkind
      rw [resolveAt_of_kind hkind]
      exact resolveAt_append_of_exactKind? hlen hselector hkey hb hplain hp
        (by simpa using hliteral.1) hexact
    · refine resolveAt_append_of_not_prefix hlen hselector hkey hb hplain hcomma ?_ ?_
      · rw [hpiece]
        simp
      · rw [hpiece, List.nil_append]
        intro hpre
        exact hsame (String.toList_injective (hkey.eq_of_prefix hname hpre))

/-- **A field that is taken** where the kind is settled leads to its value, and the kind stays. -/
theorem accept_field :
    standard.classify
        (p ++ (commaIf ctx.needsSeparator ++ (f.name.toList ++ '=' :: value.toList))) lookahead =
      some { ctx with
        boundary := .newFieldValue
        field := some f.name
        fragment := value
        needsSeparator := false } := by
  have hwritable := writable_of_kind? hk f hf
  obtain ⟨hplain, hcomma⟩ := plain_of_assignment hwritable.isKey hv
  have hp : lastPiece
      (b ++ (commaIf ctx.needsSeparator ++ (f.name.toList ++ '=' :: value.toList))) =
      f.name.toList ++ '=' :: value.toList := by
    rw [← List.append_assoc, lastPiece_append_of_not_mem hcomma,
      (lastPiece_separator hctx hvalue hfragment).2, List.nil_append]
  have hslot : value.toList = [] → ∀ slot : FamilyCode, slot.text.toList ≠ f.name.toList := by
    intro _ slot
    exact hwritable.ne_slot slot (by cases slot <;> decide)
  have hsame := resolveAt_field h hctx hvalue hfragment hkind hid hk hf hv honly
  have hcand : (standard.openContext c (standard.sectionTail p) b lookahead).candidates ≠ [] := by
    rw [hctx] at hkind
    rw [openContext_candidates, resolveAt_of_kind hkind]
    exact List.cons_ne_nil _ _
  have hres := h.classify_assigned_of_same standard_tidy.toOneTableEach
    (plain_append (plain_commaIf _) hplain) hwritable.isKey hv hp hslot hcand hsame
  rwa [String.ofList_toList, String.ofList_toList, ← hctx] at hres

end Settled

/-- **A value of the selecting key that is taken with it** settles the kind. -/
theorem accept_selector {id : KindId} {d : Discriminator} (hlen : 1 < (standard.kindsIn c).length)
    (hid : id ∈ standard.kindsIn c) (hd : standard.discriminator? id = some d) :
    standard.classify
        (p ++ (commaIf ctx.needsSeparator ++ (d.key.toList ++ '=' :: d.value.toList))) lookahead =
      some ⟨some c, .newFieldValue, some id, [id], some d.key, d.value, false⟩ := by
  obtain ⟨hselector, hliteral, hexact⟩ := standard_discriminator c id hid d hd
  obtain ⟨key, hselector', hkey⟩ := standard_tidy.selector_of_several c hlen
  obtain rfl : d.key = key := Option.some.inj (hselector.symm.trans hselector')
  obtain ⟨hb, hsep, hpiece⟩ := lastPiece_of_several h hctx hvalue hfragment hlen
  obtain ⟨hplain, hcomma⟩ := plain_of_assignment hkey hliteral.2.1
  have hp : lastPiece (b ++ (d.key.toList ++ '=' :: d.value.toList)) =
      d.key.toList ++ '=' :: d.value.toList := by
    rw [lastPiece_append_of_not_mem hcomma, hpiece, List.nil_append]
  have hne : d.value.toList ≠ [] := by simpa using hliteral.1
  rw [hsep, commaIf, if_neg (by decide), List.nil_append]
  have hresolved : standard.resolveAt c
      (standard.sectionTail p ++ (d.key.toList ++ '=' :: d.value.toList))
      (b ++ (d.key.toList ++ '=' :: d.value.toList)) lookahead = .resolved id :=
    resolveAt_append_of_exactKind? hlen hselector hkey hb hplain hp hne hexact
  have hres := h.classify_assigned_of_resolved standard_tidy.toOneTableEach hplain hkey
    hliteral.2.1 hp (fun hnil => absurd hnil hne) hresolved
  rwa [String.ofList_toList, String.ofList_toList] at hres

end Fields

/-! ### Where a value may begin -/

/-- The field that a name means in a context is one of a kind. -/
lemma writable_of_resolveField? {ctx : Context} {name : String} {id : KindId} {f : FieldSpec}
    (h : standard.resolveField? ctx name = some (id, f)) : f.Writable := by
  unfold resolveField? at h
  split at h
  · obtain ⟨k, hk, h⟩ := Option.bind_eq_some_iff.mp h
    obtain ⟨f', hf', heq⟩ := Option.map_eq_some_iff.mp h
    obtain ⟨-, rfl⟩ := Prod.mk.inj heq
    exact writable_of_kind? hk f' (List.mem_of_find?_eq_some hf')
  · split at h
    · rename_i found hfound
      obtain rfl := Option.some.inj h
      have hmem : (id, f) ∈ standard.fieldSpecsAmong name ctx.candidates := by simp [hfound]
      obtain ⟨c, k, hk, -, hf, -⟩ :=
        standard_distinct.mem_fieldSpecs_iff.mp (List.mem_of_mem_filter hmem)
      exact standard_writable (c, k) hk f hf
    · cases h

/-- What the value of a field offers stands for a value that is not empty. -/
lemma mem_fieldValueItems {o : Options} {f : FieldSpec} (hf : f.Writable) {item : CompletionItem}
    (h : item ∈ Completion.fieldValueItems o f) : IsValue item.expanded ∧ item.expanded ≠ [] := by
  have hrender : ∀ v ∈ f.validValues ++ f.defaultValue.toList,
      IsValue (expand (Completion.render o f v)) ∧ expand (Completion.render o f v) ≠ [] := by
    intro v hv
    obtain ⟨hne, hval, hd⟩ := isLiteral_render hf o hv
    rw [(expands_of_not_mem hd).expand]
    exact ⟨hval, by simpa using hne⟩
  unfold Completion.fieldValueItems at h
  split_ifs at h with hempty
  · cases hdefault : f.defaultValue with
    | none =>
      rw [hdefault] at h
      obtain rfl := List.mem_singleton.mp h
      rw [CompletionItem.expanded, CompletionItem.text, Option.getD_some,
        (expands_tabStop 1 f.detail).expand]
      exact ⟨hf.isValue_detail, by simpa using hf.detail_ne⟩
    | some v =>
      rw [hdefault] at h
      obtain rfl := List.mem_singleton.mp h
      exact hrender v (by simp [hdefault])
  · obtain ⟨v, hmem, rfl⟩ := List.mem_map.mp h
    exact hrender v (by simp [hmem])

section Values

variable {p b lookahead : List Char} {c : Container} {ctx : Context} (h : standard.OpenAt p c b)
  (hctx : ctx = standard.openContext c (standard.sectionTail p) b lookahead)
  (hvalue : ctx.boundary = .newFieldValue) (hfragment : ctx.fragment = "")
include h hctx hvalue hfragment

omit h in
/-- Where a value may begin, the last piece is a key and `=`. -/
lemma exists_key : ∃ key, IsKey key ∧ lastPiece b = key ++ ['='] ∧
    ctx.field = some (String.ofList key) ∧ ctx.needsSeparator = false := by
  subst hctx
  unfold openContext at *
  cases hassign : assigned? (lastPiece b) with
  | none =>
    simp only [hassign, Context.ofResolution_boundary] at hvalue
    split_ifs at hvalue
  | some a =>
    obtain ⟨key, v⟩ := a
    simp only [hassign] at hfragment ⊢
    obtain ⟨hkey, -, hp⟩ := assigned?_eq_some_iff.mp hassign
    have hnil : v = [] := by simpa using hfragment
    exact ⟨key, hkey, by rw [hp, hnil], rfl, by simp⟩

/-- **A value that is taken** is the value of the field, and the kinds stay. -/
theorem accept_value (hcand : ctx.candidates ≠ [])
    (hfield : (standard.kindsIn c).length = 1 ∨ ctx.field ≠ standard.selector? c) {u : List Char}
    (hu : IsValue u) (hne : u ≠ []) :
    standard.classify (p ++ u) lookahead = some { ctx with fragment := String.ofList u } := by
  obtain ⟨key, hkey, hpiece, hkeys, hsep⟩ := exists_key hctx hvalue hfragment
  have hp : lastPiece (b ++ u) = key ++ '=' :: u := by
    rw [lastPiece_append_of_not_mem hu.not_mem_comma, hpiece]
    simp
  have hsame : standard.resolveAt c (standard.sectionTail p ++ u) (b ++ u) lookahead =
      standard.resolveAt c (standard.sectionTail p) b lookahead := by
    rcases h.single_or_plain standard_tidy with ⟨id, hid⟩ | ⟨hlen, hb⟩
    · rw [resolveAt_of_single hid, resolveAt_of_single hid]
    · obtain ⟨selector, hselector, hk⟩ := standard_tidy.selector_of_several c hlen
      have hother : selector.toList ≠ key := by
        rintro rfl
        refine hfield.resolve_left (by omega) ?_
        rw [hkeys, hselector, String.ofList_toList]
      refine resolveAt_append_of_not_prefix hlen hselector hk hb hu.plain hu.not_mem_comma ?_ ?_
      · rw [hpiece]
        exact fun hpre => hother (hk.eq_of_prefix hkey hpre)
      · rw [hpiece, List.append_assoc]
        exact fun hpre => hother (hk.eq_of_prefix hkey hpre)
  rw [hctx] at hcand
  have hres := h.classify_assigned_of_same standard_tidy.toOneTableEach hu.plain hkey hu hp
    (fun hnil => absurd hnil hne) hcand hsame
  rw [hres, ← hctx, ← hkeys, ← hvalue, ← hsep]

/-- **A value of the selecting key that is taken** settles the kind. -/
theorem accept_selector_value {id : KindId} {d : Discriminator}
    (hlen : 1 < (standard.kindsIn c).length) (hfield : ctx.field = standard.selector? c)
    (hid : id ∈ standard.kindsIn c) (hd : standard.discriminator? id = some d) :
    standard.classify (p ++ d.value.toList) lookahead =
      some { ctx with kind := some id, candidates := [id], fragment := d.value } := by
  obtain ⟨hselector, hliteral, hexact⟩ := standard_discriminator c id hid d hd
  obtain ⟨key, hkey, hpiece, hkeys, hsep⟩ := exists_key hctx hvalue hfragment
  obtain rfl : key = d.key.toList := by
    rw [hkeys, hselector] at hfield
    rw [← Option.some.inj hfield, String.toList_ofList]
  have hb := h.plain_of_several standard_tidy hlen
  have hp : lastPiece (b ++ d.value.toList) = d.key.toList ++ '=' :: d.value.toList := by
    rw [lastPiece_append_of_not_mem hliteral.2.1.not_mem_comma, hpiece]
    simp
  have hne : d.value.toList ≠ [] := by simpa using hliteral.1
  have hresolved : standard.resolveAt c (standard.sectionTail p ++ d.value.toList)
      (b ++ d.value.toList) lookahead = .resolved id :=
    resolveAt_append_of_exactKind? hlen hselector hkey hb hliteral.2.1.plain hp hne hexact
  have hres := h.classify_assigned_of_resolved standard_tidy.toOneTableEach hliteral.2.1.plain hkey
    hliteral.2.1 hp (fun hnil => absurd hnil hne) hresolved
  have hcontainer : ctx.container = some c := by
    rw [hctx]
    exact openContext_container _
  rw [hres, ← hkeys, ← hvalue, ← hsep, ← hcontainer, String.ofList_toList]

end Values

/-! ### Members of an element -/

lemma candidateKinds_of_kind {c : Container} {tail b lookahead : List Char} {ctx : Context}
    (hctx : ctx = standard.openContext c tail b lookahead) {id : KindId}
    (hkind : ctx.kind = some id) :
    id ∈ standard.kindsIn c ∧ ∃ k, standard.kind? id = some k ∧
      Completion.candidateKinds standard ctx = [k] := by
  subst hctx
  have hresolved := resolveAt_of_kind hkind
  have hid : id ∈ standard.kindsIn c := by
    rcases resolve_cases (standard_tidy.kinds_ne_nil c) ⟨b, lookahead, textBefore tail b⟩ with
      ⟨id', hid', hr⟩ | ⟨ids, -, -, hr⟩ | hr
    all_goals rw [← resolveAt, hresolved] at hr
    · rwa [Resolution.resolved.inj hr]
    · cases hr
    · cases hr
  obtain ⟨k, hk⟩ := Option.isSome_iff_exists.mp (isSome_kind? hid)
  refine ⟨hid, k, hk, ?_⟩
  rw [Completion.candidateKinds, openContext_candidates, hresolved]
  simp [Context.ofResolution, hk]

/-- While the kind is open, several kinds of the container are left. -/
lemma candidates_of_open {c : Container} {tail b lookahead : List Char} {ctx : Context}
    (hctx : ctx = standard.openContext c tail b lookahead) (hcand : ctx.candidates ≠ [])
    (hkind : ctx.kind = none) :
    1 < ctx.candidates.length ∧ (∀ id ∈ ctx.candidates, id ∈ standard.kindsIn c) ∧
      1 < (standard.kindsIn c).length := by
  subst hctx
  rw [openContext_kind] at hkind
  rw [openContext_candidates] at hcand ⊢
  rcases resolve_cases (standard_tidy.kinds_ne_nil c) ⟨b, lookahead, textBefore tail b⟩ with
    ⟨id, -, hr⟩ | ⟨ids, hlen, hsub, hr⟩ | hr
  all_goals rw [← resolveAt] at hr
  · rw [hr] at hkind
    cases hkind
  · have hseveral : 1 < (standard.kindsIn c).length := by
      by_contra hone
      have hpos := List.length_pos_iff.mpr (standard_tidy.kinds_ne_nil c)
      obtain ⟨id, hid⟩ := List.length_eq_one_iff.mp (show (standard.kindsIn c).length = 1 by omega)
      rw [resolveAt_of_single hid] at hr
      cases hr
    rw [hr]
    exact ⟨hlen, fun id hid => hsub.subset hid, hseveral⟩
  · rw [hr] at hcand
    exact absurd rfl hcand

/-- The members that a settled kind offers, behind the separator that is asked for. -/
lemma mem_memberItems {o : Options} {ctx : Context} {k : ElementKind}
    (hk : Completion.candidateKinds standard ctx = [k]) {item : CompletionItem}
    (h : item ∈ Completion.memberItems standard o ctx) :
    ∃ member ∈ k.fields.flatMap (Completion.fieldItems o) ++
        k.slots.filterMap (Completion.slotItem? standard o),
      item.label = member.label ∧ item.text = ctx.separator ++ member.text := by
  simp only [Completion.memberItems, hk] at h
  cases hsep : ctx.needsSeparator with
  | true =>
    rw [hsep, if_pos rfl] at h
    obtain ⟨member, hmember, rfl⟩ := List.mem_map.mp h
    exact ⟨member, hmember, rfl, rfl⟩
  | false =>
    rw [hsep, if_neg (by decide)] at h
    refine ⟨item, h, rfl, ?_⟩
    rw [Context.separator, hsep, if_neg (by decide), String.empty_append]

section Members

variable {p b lookahead : List Char} {c : Container} {ctx : Context} (h : standard.OpenAt p c b)
  (hctx : ctx = standard.openContext c (standard.sectionTail p) b lookahead)
  {o : Options} {item : CompletionItem} (hitem : item ∈ Completion.memberItems standard o ctx)
  (hvalue : ctx.boundary ≠ .newFieldValue) (hfragment : ctx.fragment = "")
include h hctx hitem hvalue hfragment

/-- **What is taken where the kind is settled** is a field of the kind or one of its blocks. -/
theorem accept_member {id : KindId} (hkind : ctx.kind = some id) :
    (∃ k f value, standard.kind? id = some k ∧ f ∈ k.fields ∧
      item.label = f.name ++ "=" ++ value ∧
      standard.classify (p ++ item.expanded) lookahead = some { ctx with
        boundary := .newFieldValue
        field := some f.name
        fragment := value
        needsSeparator := false }) ∨
    ∃ slot : FamilyCode, item.label = slot.text ∧ c = .ofSection .neurons ∧
      standard.classify (p ++ item.expanded) lookahead =
        some (standard.blankContext (.ofSection .neurons) .fieldBoundary true) := by
  obtain ⟨hid, k, hk, hkinds⟩ := candidateKinds_of_kind hctx hkind
  obtain ⟨member, hmember, hlabel, htext⟩ := mem_memberItems hkinds hitem
  rcases List.mem_append.mp hmember with hmember | hmember
  · obtain ⟨f, hf, hmember⟩ := List.mem_flatMap.mp hmember
    have hwritable := writable_of_kind? hk f hf
    obtain ⟨value, hmlabel, hmtext, hv, hd, honly⟩ := mem_fieldItems hwritable hmember
    rw [hmtext, hmlabel] at htext
    refine Or.inl ⟨k, f, value, hk, hf, hlabel.trans hmlabel, ?_⟩
    rw [expanded_of_separator htext (expands_assignment hwritable.isKey hd)]
    exact accept_field h hctx hvalue hfragment hkind hid hk hf hv honly
  · obtain ⟨slot, hslot, hmember⟩ := List.mem_filterMap.mp hmember
    obtain ⟨k', hk', rfl⟩ := Option.map_eq_some_iff.mp hmember
    obtain rfl : c = .ofSection .neurons :=
      (standard_kind c id hid k hk).1.resolve_left (List.ne_nil_of_mem hslot)
    refine Or.inr ⟨slot, hlabel, rfl, ?_⟩
    obtain ⟨u, hu, hn⟩ := Template.balanced_fields (writable_of_defaultKind? _ k' hk')
      (o.templates == .defaults) 1
    have hblock := (Nested.of_plain (plain_commaIf ctx.needsSeparator)).append
      (nested_block hn slot)
    rw [expanded_of_separator htext (Template.expands_block hu slot)]
    rcases h with ⟨s, hs, -, hc⟩ | ⟨s, e, f, -, -, hc⟩
    · have hslotted : s.slotted = true := by
        have := neurons_slotted s hs.1 (Container.ofSection.inj hc).symm
        cases hslots : s.slotted with
        | true => rfl
        | false => rw [hslots] at this; cases this
      have hsplit : commaIf ctx.needsSeparator ++ (slot.text.toList ++ '=' :: '(' :: (u ++ [')'])) =
          (commaIf ctx.needsSeparator ++ (slot.text.toList ++ '=' :: '(' :: u)) ++ [')'] := by simp
      rw [hsplit] at hblock ⊢
      exact hs.classify_closed_block hslotted hblock lookahead
    · cases hc

/-- **What is taken where the kind is open** is a value of the selecting key, and settles it. -/
theorem accept_assignment (hcand : ctx.candidates ≠ []) (hkind : ctx.kind = none) :
    ∃ id ∈ ctx.candidates, ∃ d, standard.discriminator? id = some d ∧
      item.label = d.key ++ "=" ++ d.value ∧
      standard.classify (p ++ item.expanded) lookahead =
        some ⟨some c, .newFieldValue, some id, [id], some d.key, d.value, false⟩ := by
  obtain ⟨hids, hsub, hlen⟩ := candidates_of_open hctx hcand hkind
  have hitem' : item ∈ Completion.selectorItems ctx (Completion.candidateKinds standard ctx) := by
    have hcount : (Completion.candidateKinds standard ctx).length = ctx.candidates.length := by
      rw [Completion.candidateKinds, List.filterMap_length_eq_length]
      exact fun id hid => isSome_kind? (hsub id hid)
    unfold Completion.memberItems at hitem
    split at hitem
    · cases hitem
    · rename_i k hk
      rw [hk, List.length_singleton] at hcount
      omega
    · exact hitem
  obtain ⟨k, hk, hmap⟩ := List.mem_filterMap.mp hitem'
  obtain ⟨d, hd, rfl⟩ := Option.map_eq_some_iff.mp hmap
  obtain ⟨id, hid, hkind?⟩ := List.mem_filterMap.mp hk
  have hdisc : standard.discriminator? id = some d := by rw [discriminator?, hkind?]; exact hd
  have hid' := hsub id hid
  obtain ⟨hselector, hliteral, -⟩ := standard_discriminator c id hid' d hdisc
  have hkey : IsKey d.key.toList := by
    obtain ⟨key, hselector', hkey⟩ := standard_tidy.selector_of_several c hlen
    rwa [Option.some.inj (hselector.symm.trans hselector')]
  refine ⟨id, hid, d, hdisc, rfl, ?_⟩
  rw [expanded_of_separator rfl (expands_assignment hkey hliteral.2.2)]
  exact accept_selector h hctx hvalue hfragment hlen hid' hdisc

end Members

/-! ### Every item -/

section Offered

variable {p b lookahead : List Char} {c : Container} {ctx : Context} (h : standard.OpenAt p c b)
  (hctx : ctx = standard.openContext c (standard.sectionTail p) b lookahead)
  (hcand : ctx.candidates ≠ []) (hvalue : ctx.boundary = .newFieldValue)
  (hfragment : ctx.fragment = "") {o : Options} {item : CompletionItem}
  (hitem : item ∈ Completion.valueItems standard o ctx c)
include h hctx hcand hvalue hfragment hitem

/-- **What is taken as a value** is the value of the field; a value of the selecting key settles
the kind, and any other keeps it. -/
theorem accept_offered_value :
    if 1 < (standard.kindsIn c).length ∧ ctx.field = standard.selector? c then
      ∃ id ∈ standard.kindsIn c, ∃ d, standard.discriminator? id = some d ∧
        item.label = d.value ∧
        standard.classify (p ++ item.expanded) lookahead =
          some { ctx with kind := some id, candidates := [id], fragment := d.value }
    else
      standard.classify (p ++ item.expanded) lookahead =
        some { ctx with fragment := String.ofList item.expanded } := by
  obtain ⟨key, -, -, hkeys, -⟩ := exists_key hctx hvalue hfragment
  unfold Completion.valueItems at hitem
  rw [hkeys] at hitem
  simp only at hitem
  split_ifs with hselector
  · have hcond : (decide (1 < (standard.kindsIn c).length) &&
        standard.selector? c == some (String.ofList key)) = true := by
      simp [hselector.1, ← hkeys, hselector.2]
    rw [if_pos hcond] at hitem
    obtain ⟨k, hk, hmap⟩ := List.mem_filterMap.mp hitem
    obtain ⟨d, hd, rfl⟩ := Option.map_eq_some_iff.mp hmap
    obtain ⟨id, hid, hkind⟩ := List.mem_filterMap.mp hk
    have hdisc : standard.discriminator? id = some d := by rw [discriminator?, hkind]; exact hd
    have hliteral := (standard_discriminator c id hid d hdisc).2.1
    refine ⟨id, hid, d, hdisc, rfl, ?_⟩
    have hexpanded : CompletionItem.expanded
        ⟨d.value, some k.name, .enumMember, none, some k.description, false⟩ = d.value.toList :=
      (expands_of_not_mem hliteral.2.2).expand
    rw [hexpanded]
    exact accept_selector_value h hctx hvalue hfragment hselector.1 hselector.2 hid hdisc
  · have hcond : ¬ (decide (1 < (standard.kindsIn c).length) &&
        standard.selector? c == some (String.ofList key)) = true := by
      intro hcond
      simp only [Bool.and_eq_true, decide_eq_true_eq, beq_iff_eq] at hcond
      exact hselector ⟨hcond.1, hkeys.trans hcond.2.symm⟩
    have hfield : (standard.kindsIn c).length = 1 ∨ ctx.field ≠ standard.selector? c := by
      have := List.length_pos_iff.mpr (standard_tidy.kinds_ne_nil c)
      by_contra hno
      rw [not_or, not_not] at hno
      exact hselector ⟨by omega, hno.2⟩
    rw [if_neg hcond] at hitem
    split at hitem
    · rename_i id f hf
      obtain ⟨hv, hne⟩ := mem_fieldValueItems (writable_of_resolveField? hf) hitem
      exact accept_value h hctx hvalue hfragment hcand hfield hv hne
    · cases hitem

end Offered

/-- **A template that is taken** is one more closed element, or closes the block of its slot. -/
theorem accept_template {p lookahead : List Char} {ctx : Context} {c : Container}
    (h : standard.classify p lookahead = some ctx) (hc : ctx.container = some c)
    (hb : ctx.boundary = .newElement) {o : Options} {item : CompletionItem}
    (hitem : item ∈ Completion.elementItems standard o ctx c) :
    standard.classify (p ++ item.expanded) lookahead =
      some (match c with
        | .ofSection code => standard.blankContext (.ofSection code) .newElement true
        | .ofFamily _ => standard.blankContext (.ofSection .neurons) .fieldBoundary true) := by
  rcases exists_standsAt_newElement standard_tidy.toOneTableEach h hc hb with
    ⟨s, closed, hs, rfl, rfl⟩ | ⟨s, b, f, hs, hend, rfl, rfl⟩
  · exact accept_element hs hitem lookahead
  · exact accept_block hs hend hitem lookahead

lemma mem_memberItems_of_items {o : Options} {ctx : Context} {c : Container} {item : CompletionItem}
    (hc : ctx.container = some c) (hb : ctx.boundary ≠ .newElement)
    (hv : ctx.boundary ≠ .newFieldValue) (h : item ∈ Completion.items standard o ctx) :
    item ∈ Completion.memberItems standard o ctx := by
  rw [Completion.items, hc] at h
  cases hbd : ctx.boundary with
  | newElement => exact absurd hbd hb
  | newFieldValue => exact absurd hbd hv
  | fieldBoundary => rwa [hbd] at h
  | insideElement => rwa [hbd] at h

/-- **Every item that is taken keeps the text in the grammar.** Where nothing is typed yet, the
text with the item has a context again:

* a section is empty, and the cursor is in its list;
* a template is one more closed element, or closes the block of its slot;
* where the kind is settled, a field leads to its value and the kind stays, and the block of a slot
  is closed;
* where the kind is open, a value of the selecting key settles it;
* a value is the value of the field; one of the selecting key settles the kind. -/
theorem accept_item (o : Options) (p lookahead : List Char) (ctx : Context)
    (h : standard.classify p lookahead = some ctx) (hfragment : ctx.fragment = "")
    (item : CompletionItem) (hitem : item ∈ Completion.items standard o ctx) :
    (∃ after, standard.classify (p ++ item.expanded) lookahead = some after) ∧
    (ctx.container = none → ∃ s ∈ standard.sections, item.label = s.code.text ∧
      standard.classify (p ++ item.upToStop) lookahead =
        some (standard.blankContext (.ofSection s.code) .newElement false) ∧
      standard.classify (p ++ item.expanded) lookahead =
        some (Context.betweenSections [] true)) ∧
    (∀ code, ctx.container = some (.ofSection code) → ctx.boundary = .newElement →
      standard.classify (p ++ item.expanded) lookahead =
        some (standard.blankContext (.ofSection code) .newElement true)) ∧
    (∀ f, ctx.container = some (.ofFamily f) → ctx.boundary = .newElement →
      standard.classify (p ++ item.expanded) lookahead =
        some (standard.blankContext (.ofSection .neurons) .fieldBoundary true)) ∧
    (∀ c id, ctx.container = some c → ctx.boundary ≠ .newElement →
      ctx.boundary ≠ .newFieldValue → ctx.kind = some id →
      (∃ k f value, standard.kind? id = some k ∧ f ∈ k.fields ∧
        item.label = f.name ++ "=" ++ value ∧
        standard.classify (p ++ item.expanded) lookahead = some { ctx with
          boundary := .newFieldValue
          field := some f.name
          fragment := value
          needsSeparator := false }) ∨
      ∃ slot : FamilyCode, item.label = slot.text ∧ c = .ofSection .neurons ∧
        standard.classify (p ++ item.expanded) lookahead =
          some (standard.blankContext (.ofSection .neurons) .fieldBoundary true)) ∧
    (∀ c, ctx.container = some c → ctx.boundary ≠ .newElement → ctx.boundary ≠ .newFieldValue →
      ctx.kind = none → ∃ id ∈ ctx.candidates, ∃ d, standard.discriminator? id = some d ∧
        item.label = d.key ++ "=" ++ d.value ∧
        standard.classify (p ++ item.expanded) lookahead =
          some ⟨some c, .newFieldValue, some id, [id], some d.key, d.value, false⟩) ∧
    ∀ c, ctx.container = some c → ctx.boundary = .newFieldValue →
      if 1 < (standard.kindsIn c).length ∧ ctx.field = standard.selector? c then
        ∃ id ∈ standard.kindsIn c, ∃ d, standard.discriminator? id = some d ∧
          item.label = d.value ∧
          standard.classify (p ++ item.expanded) lookahead =
            some { ctx with kind := some id, candidates := [id], fragment := d.value }
      else
        standard.classify (p ++ item.expanded) lookahead =
          some { ctx with fragment := String.ofList item.expanded } := by
  have hg := standard_tidy.toOneTableEach
  refine (and_iff_right_of_imp ?_).mpr ⟨?_, ?_, ?_, ?_, ?_, ?_⟩
  · rintro ⟨hsection, helement, hblock, hmember, hassignment, hvalue⟩
    cases hc : ctx.container with
    | none =>
      obtain ⟨s, -, -, -, hres⟩ := hsection hc
      exact ⟨_, hres⟩
    | some c =>
      by_cases hb : ctx.boundary = .newElement
      · cases c with
        | ofSection code => exact ⟨_, helement code hc hb⟩
        | ofFamily f => exact ⟨_, hblock f hc hb⟩
      by_cases hv : ctx.boundary = .newFieldValue
      · have hres := hvalue c hc hv
        split_ifs at hres
        · obtain ⟨id, -, d, -, -, hres⟩ := hres
          exact ⟨_, hres⟩
        · exact ⟨_, hres⟩
      · cases hkind : ctx.kind with
        | some id =>
          rcases hmember c id hc hb hv hkind with ⟨k, f, value, -, -, -, hres⟩ | ⟨slot, -, -, hres⟩
          · exact ⟨_, hres⟩
          · exact ⟨_, hres⟩
        | none =>
          obtain ⟨id, -, d, -, -, hres⟩ := hassignment c hc hb hv hkind
          exact ⟨_, hres⟩
  · intro hc
    rw [Completion.items, hc] at hitem
    exact accept_section hitem p lookahead
  · intro code hc hb
    rw [Completion.items, hc, hb] at hitem
    exact accept_template h hc hb hitem
  · intro f hc hb
    rw [Completion.items, hc, hb] at hitem
    exact accept_template h hc hb hitem
  · intro c id hc hb hv hkind
    obtain ⟨b, hopen, hctx, -⟩ := exists_openAt hg h hc hb
    exact accept_member hopen hctx (mem_memberItems_of_items hc hb hv hitem) hv hfragment hkind
  · intro c hc hb hv hkind
    obtain ⟨b, hopen, hctx, hcand⟩ := exists_openAt hg h hc hb
    exact accept_assignment hopen hctx (mem_memberItems_of_items hc hb hv hitem) hv hfragment hcand
      hkind
  · intro c hc hb
    obtain ⟨b, hopen, hctx, hcand⟩ := exists_openAt hg h hc (by rw [hb]; decide)
    rw [Completion.items, hc, hb] at hitem
    exact accept_offered_value hopen hctx hcand hb hfragment hitem

/-- In an empty learning function the kind `flat` is offered, and taking it settles the kind. -/
theorem accept_item_learning :
    ∃ item ∈ Completion.items standard {}
        (standard.blankContext (.ofSection .learning) .fieldBoundary false),
      item.label = "fnc=flat" ∧ ∃ id d, standard.discriminator? id = some d ∧
        item.label = d.key ++ "=" ++ d.value ∧
        standard.classify ("LRN=[(".toList ++ item.expanded) [] =
          some ⟨some (.ofSection .learning), .newFieldValue, some id, [id], some d.key, d.value,
            false⟩ := by
  have hoffered : ∃ item ∈ Completion.items standard {}
      (standard.blankContext (.ofSection .learning) .fieldBoundary false),
      item.label = "fnc=flat" := by
    decide +kernel
  have hctx : standard.classify "LRN=[(".toList [] =
      some (standard.blankContext (.ofSection .learning) .fieldBoundary false) := by
    decide +kernel
  obtain ⟨item, hitem, hlabel⟩ := hoffered
  obtain ⟨-, -, -, -, -, hassignment, -⟩ := accept_item {} _ _ _ hctx rfl item hitem
  obtain ⟨id, -, d, hd, hkey, hres⟩ :=
    hassignment (.ofSection .learning) rfl (by decide) (by decide) (by decide)
  exact ⟨item, hitem, hlabel, id, d, hd, hkey, hres⟩

end Grammar

end TopologyAssist
