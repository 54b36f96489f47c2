import TopologyAssist.Proofs.Keystrokes

/-!
Fields and values that are typed into an open block.

Text without a comma goes on the last piece of the block. If the piece is then a key and a value,
the context is the one of that value, and the kinds are the same as before unless the key is the
selecting one: then the value decides.
-/

namespace TopologyAssist

namespace Grammar

variable {g : Grammar} {p b t name v tail lookahead : List Char} {c : Container}

/-! ### The context of a typed value -/

section Assigned

variable (h : g.OpenAt p c b) (hg : g.OneTableEach) (ht : ∀ x ∈ t, isPlain x = true)
  (hname : IsKey name) (hv : IsValue v) (hp : lastPiece (b ++ t) = name ++ '=' :: v)
  (hslot : v = [] → ∀ f : FamilyCode, f.text.toList ≠ name)
include h hg ht hname hv hp hslot

/-- Where a value is typed, by the kinds that are left. -/
lemma OpenAt.classify_assigned (lookahead : List Char) :
    g.classify (p ++ t) lookahead =
      withKinds (some { Context.ofResolution c .newFieldValue
          (g.resolveAt c (g.sectionTail p ++ t) (b ++ t) lookahead) with
        field := some (String.ofList name)
        fragment := String.ofList v }) := by
  have hassign := assigned?_eq_some_iff.mpr ⟨hname, hv, hp⟩
  have hend : ∀ s ∈ g.sections, s.slotEnd? (b ++ t) = none := by
    intro s _
    unfold SectionSpec.slotEnd?
    rw [hassign]
    cases v with
    | cons x v => rfl
    | nil => exact List.find?_eq_none.mpr fun f _ hf => hslot rfl f (by simpa using hf)
  obtain ⟨hopen, htail⟩ := h.append ht hend
  rw [hopen.classify hg, htail, openContext, hassign]

/-- A typed value that leaves the kinds as they were. -/
lemma OpenAt.classify_assigned_of_same
    (hne : (g.openContext c (g.sectionTail p) b lookahead).candidates ≠ [])
    (hsame : g.resolveAt c (g.sectionTail p ++ t) (b ++ t) lookahead =
      g.resolveAt c (g.sectionTail p) b lookahead) :
    g.classify (p ++ t) lookahead =
      some { g.openContext c (g.sectionTail p) b lookahead with
        boundary := .newFieldValue
        field := some (String.ofList name)
        fragment := String.ofList v
        needsSeparator := false } := by
  rw [h.classify_assigned hg ht hname hv hp hslot, hsame]
  rw [openContext_candidates] at hne
  have hctx : { g.openContext c (g.sectionTail p) b lookahead with
      boundary := .newFieldValue
      field := some (String.ofList name)
      fragment := String.ofList v
      needsSeparator := false } = { Context.ofResolution c .newFieldValue
        (g.resolveAt c (g.sectionTail p) b lookahead) with
      field := some (String.ofList name)
      fragment := String.ofList v } := by
    unfold openContext
    cases assigned? (lastPiece b) <;> cases g.resolveAt c (g.sectionTail p) b lookahead <;> rfl
  rw [hctx]
  cases hr : g.resolveAt c (g.sectionTail p) b lookahead with
  | resolved id => rfl
  | rejected =>
    rw [hr] at hne
    exact absurd rfl hne
  | ambiguous ids =>
    rw [hr] at hne
    simpa [withKinds, Context.ofResolution] using hne

/-- A typed value that settles the kind. -/
lemma OpenAt.classify_assigned_of_resolved {id : KindId}
    (hid : g.resolveAt c (g.sectionTail p ++ t) (b ++ t) lookahead = .resolved id) :
    g.classify (p ++ t) lookahead =
      some ⟨some c, .newFieldValue, some id, [id], some (String.ofList name), String.ofList v,
        false⟩ := by
  rw [h.classify_assigned hg ht hname hv hp hslot, hid]
  rfl

end Assigned

/-! ### The kinds that typed text leaves -/

section Several

variable {key : String} (hlen : 1 < (g.kindsIn c).length) (hkey : g.selector? c = some key)
  (hk : IsKey key.toList) (hb : ∀ x ∈ b, isPlain x = true) (ht : ∀ x ∈ t, isPlain x = true)
include hlen hkey hk hb ht

/-- Text on a piece that does not assign to the selecting key keeps the kinds. -/
lemma resolveAt_append_of_not_prefix (hcomma : ',' ∉ t)
    (hp : ¬ key.toList ++ ['='] <+: lastPiece b)
    (hp' : ¬ key.toList ++ ['='] <+: lastPiece b ++ t) :
    g.resolveAt c (tail ++ t) (b ++ t) lookahead = g.resolveAt c tail b lookahead := by
  rw [resolveAt_of_several hlen hkey (plain_append hb ht), resolveAt_of_several hlen hkey hb,
    textBefore_append_both, assignments_append_piece hk hb ht hcomma hp hp']

/-- The value of a kind behind the selecting key settles it. -/
lemma resolveAt_append_of_exactKind? (hp : lastPiece (b ++ t) = key.toList ++ '=' :: v)
    (hv : v ≠ []) {id : KindId} (hid : g.exactKind? (g.kindsIn c) v = some id) :
    g.resolveAt c tail (b ++ t) lookahead = .resolved id := by
  rw [resolveAt_of_several hlen hkey (plain_append hb ht),
    (getLast?_assignments_key hk (plain_append hb ht) hp).1, settle, if_neg (by simpa using hv),
    if_neg (by simp), select]
  simp only [Observed.value, hid]

end Several

/-! ### The kinds of a context are kinds of its container -/

/-- **What a value can leave**: one of the kinds, several of them in their order, or none. -/
lemma select_cases (ids : List KindId) (found : Observed) :
    (∃ id ∈ ids, g.select ids found = .resolved id) ∨
    (∃ ids', 1 < ids'.length ∧ ids'.Sublist ids ∧ g.select ids found = .ambiguous ids') ∨
    g.select ids found = .rejected := by
  unfold select
  cases hexact : g.exactKind? ids found.value with
  | some id => exact Or.inl ⟨id, List.mem_of_find?_eq_some hexact, rfl⟩
  | none =>
    have hsub : (ids.filter fun id =>
        (g.discriminator? id).any fun d => d.accepts found).Sublist ids := List.filter_sublist
    generalize (ids.filter fun id => (g.discriminator? id).any fun d => d.accepts found) = left at *
    match left with
    | [] => exact Or.inr (Or.inr rfl)
    | [id] => exact Or.inl ⟨id, List.singleton_sublist.mp hsub, rfl⟩
    | id :: id' :: rest => exact Or.inr (Or.inl ⟨_, by simp, hsub, rfl⟩)

/-- **What evidence can leave** of the kinds of a container. -/
theorem resolve_cases (hne : g.kindsIn c ≠ []) (e : Evidence) :
    (∃ id ∈ g.kindsIn c, g.resolve c e = .resolved id) ∨
    (∃ ids, 1 < ids.length ∧ ids.Sublist (g.kindsIn c) ∧ g.resolve c e = .ambiguous ids) ∨
    g.resolve c e = .rejected := by
  have hlen : (g.kindsIn c).length = 1 ∨ 1 < (g.kindsIn c).length := by
    have := List.length_pos_iff.mpr hne
    omega
  rcases hlen with hlen | hlen
  · obtain ⟨id, hid⟩ := List.length_eq_one_iff.mp hlen
    exact Or.inl ⟨id, by simp [hid], resolve_of_single hid e⟩
  · have hall : ∀ r, r = Resolution.ambiguous (g.kindsIn c) →
        ∃ ids, 1 < ids.length ∧ ids.Sublist (g.kindsIn c) ∧ r = .ambiguous ids :=
      fun r hr => ⟨_, hlen, List.Sublist.refl _, hr⟩
    unfold resolve
    split
    · rename_i id hid
      rw [hid] at hlen
      exact absurd hlen (by simp)
    · split
      · exact Or.inr (Or.inl (hall _ rfl))
      · split
        · split_ifs
          · unfold resolveEmpty
            split
            · rename_i id hid
              obtain ⟨v, -, hexact⟩ := Option.bind_eq_some_iff.mp hid
              exact Or.inl ⟨id, List.mem_of_find?_eq_some hexact, rfl⟩
            · exact Or.inr (Or.inl (hall _ rfl))
          · exact select_cases _ _
          · exact select_cases _ _
        · split
          · split_ifs
            · exact Or.inr (Or.inl (hall _ rfl))
            · exact select_cases _ _
          · exact Or.inr (Or.inl (hall _ rfl))

end Grammar

/-- The kinds of a context in a container: a settled one alone, or several while it is open. -/
inductive Context.KindsOf (g : Grammar) (c : Container) (ctx : Context) : Prop where
  | settled {id : KindId} (hid : id ∈ g.kindsIn c) (hkind : ctx.kind = some id)
      (hids : ctx.candidates = [id])
  | several (hkind : ctx.kind = none) (hlen : 1 < ctx.candidates.length)
      (hsub : ∀ id ∈ ctx.candidates, id ∈ g.kindsIn c)

namespace Grammar

variable {g : Grammar} {p lookahead : List Char} {c : Container} {ctx : Context}

/-- A container without kinds has none left. -/
lemma kindsIn_ne_nil_of_candidates {boundary : Boundary} {e : Evidence}
    (h : (Context.ofResolution c boundary (g.resolve c e)).candidates ≠ []) :
    g.kindsIn c ≠ [] := by
  intro hnil
  have hresolve : g.resolve c e = .ambiguous [] := by simp [resolve, selector?, hnil]
  rw [hresolve] at h
  exact h rfl

/-- **What evidence leaves** is one kind or several. -/
lemma kindsOf_resolve {boundary : Boundary} {e : Evidence}
    (hkind : ctx.kind = (Context.ofResolution c boundary (g.resolve c e)).kind)
    (hids : ctx.candidates = (Context.ofResolution c boundary (g.resolve c e)).candidates)
    (hne : ctx.candidates ≠ []) : ctx.KindsOf g c := by
  rw [hids] at hne
  rcases resolve_cases (kindsIn_ne_nil_of_candidates hne) e with
    ⟨id, hid, hr⟩ | ⟨ids, hlen, hsub, hr⟩ | hr
  · rw [hr] at hkind hids
    exact .settled hid hkind hids
  · rw [hr] at hkind hids
    exact .several hkind (by rwa [hids]) (by rw [hids]; exact fun id hid => hsub.subset hid)
  · rw [hr] at hne
    exact absurd rfl hne

/-- Every place of a section has a container, and evidence says which kinds are left in it. -/
lemma contextAt_kinds (g : Grammar) (code : SectionCode) (tail lookahead : List Char)
    (place : Place) :
    ∃ c boundary e, (g.contextAt code tail lookahead place).container = some c ∧
      (g.contextAt code tail lookahead place).kind =
        (Context.ofResolution c boundary (g.resolve c e)).kind ∧
      (g.contextAt code tail lookahead place).candidates =
        (Context.ofResolution c boundary (g.resolve c e)).candidates := by
  cases place with
  | newElement =>
    refine ⟨.ofSection code, .newElement, ⟨[], [], []⟩, ?_⟩
    rw [resolve_empty]
    exact ⟨Context.ofResolution_container _ _ _, rfl, rfl⟩
  | newBlock family =>
    refine ⟨.ofFamily family, .newElement, ⟨[], [], []⟩, ?_⟩
    rw [resolve_empty]
    exact ⟨Context.ofResolution_container _ _ _, rfl, rfl⟩
  | value block scope key fragment =>
    exact ⟨containerOf code block, .newFieldValue, ⟨scope, lookahead, textBefore tail scope⟩,
      Context.ofResolution_container _ _ _, rfl, rfl⟩
  | field block scope =>
    exact ⟨containerOf code block, _, ⟨scope, lookahead, textBefore tail scope⟩,
      Context.ofResolution_container _ _ _, rfl, rfl⟩

/-- **A context is one between sections**, or one or several kinds of a container are left. -/
theorem classify_kinds (h : g.classify p lookahead = some ctx) :
    (∃ fragment needsSeparator, ctx = .betweenSections fragment needsSeparator) ∨
      ∃ c, ctx.container = some c ∧ ctx.KindsOf g c := by
  simp only [classify] at h
  split at h
  · rename_i code place _
    split_ifs at h with hempty
    obtain rfl := Option.some.inj h
    obtain ⟨c, boundary, e, hc, hkind, hids⟩ :=
      g.contextAt_kinds code (g.sectionTail p) lookahead place
    exact Or.inr ⟨c, hc, kindsOf_resolve hkind hids (by simpa using hempty)⟩
  · obtain ⟨fragment, -, rfl⟩ := Option.map_eq_some_iff.mp h
    exact Or.inl ⟨fragment, _, rfl⟩

lemma classify_kinds_of_container (h : g.classify p lookahead = some ctx)
    (hc : ctx.container = some c) : ctx.KindsOf g c := by
  rcases classify_kinds h with ⟨w, sep, rfl⟩ | ⟨c', hc', hkinds⟩
  · cases hc
  · obtain rfl := Option.some.inj (hc'.symm.trans hc)
    exact hkinds

end Grammar

end TopologyAssist
