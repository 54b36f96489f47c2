import TopologyAssist.Proofs.Rendering
import TopologyAssist.Proofs.Typing

/-!
Ordinary characters keep the context.

One more character of a key or a value goes on the last piece of the open block, and the context
moves with it: the fragment grows, and the kinds stay. In a value of the selecting key the kinds
narrow to those whose value begins with what is typed, whatever the rest of the line and earlier
elements say. A character that leads nowhere leaves no context (`StandsAt.classify_of_step_none`).
-/

namespace TopologyAssist

/-! ### One more character on the last piece -/

/-- A piece that assigns nothing does not begin to with a key character. -/
lemma assigned?_snoc_of_none {piece : List Char} (h : assigned? piece = none) {d : Char}
    (hd : isKeyChar d = true) : assigned? (piece ++ [d]) = none := by
  cases hsnoc : assigned? (piece ++ [d]) with
  | none => rfl
  | some a =>
    obtain ⟨hkey, hv, heq⟩ := assigned?_eq_some_iff.mp hsnoc
    rcases List.eq_nil_or_concat a.2 with hnil | ⟨v, d', hconcat⟩
    · rw [hnil] at heq
      obtain ⟨rfl, -⟩ := List.cons.inj (List.append_inj_right' heq rfl)
      exact absurd hd (by decide)
    · rw [List.concat_eq_append] at hconcat
      rw [hconcat] at heq hv
      have hsplit : piece ++ [d] = (a.1 ++ '=' :: v) ++ [d'] := by simpa using heq
      have hpiece : piece = a.1 ++ '=' :: v := List.append_inj_left' hsplit rfl
      have hsome := assigned?_eq_some_iff.mpr ⟨hkey, fun c hc => hv c (by simp [hc]), hpiece⟩
      rw [h] at hsome
      cases hsome

/-- A slot ends with a key and `=`, so a piece with a value opens no block. -/
lemma SectionSpec.slotEnd?_of_value {s : SectionSpec} {b : List Char}
    (h : ∀ name, assigned? (lastPiece b) ≠ some (name, [])) : s.slotEnd? b = none := by
  unfold slotEnd?
  split
  · rename_i name hname
    exact absurd hname (h name)
  · rfl

lemma IsValue.snoc {v : List Char} (hv : IsValue v) {d : Char} (hd : isValueChar d = true) :
    IsValue (v ++ [d]) := by
  intro c hc
  rcases List.mem_append.mp hc with hc | hc
  · exact hv c hc
  · rw [List.mem_singleton.mp hc, hd]

namespace Grammar

variable {g : Grammar} {p b lookahead : List Char} {c : Container} {d : Char}

/-- In a value the last piece assigns it. -/
lemma assigned?_of_boundary {tail : List Char}
    (h : (g.openContext c tail b lookahead).boundary = .newFieldValue) :
    ∃ key v, assigned? (lastPiece b) = some (key, v) := by
  cases hassign : assigned? (lastPiece b) with
  | some a => exact ⟨a.1, a.2, rfl⟩
  | none =>
    simp only [openContext, hassign, Context.ofResolution_boundary] at h
    split_ifs at h

/-- Outside of values the last piece assigns nothing. -/
lemma assigned?_of_boundary_ne {tail : List Char}
    (h : (g.openContext c tail b lookahead).boundary ≠ .newFieldValue) :
    assigned? (lastPiece b) = none := by
  cases hassign : assigned? (lastPiece b) with
  | none => rfl
  | some a =>
    rw [openContext, hassign] at h
    exact absurd (Context.ofResolution_boundary _ _ _) h

/-! ### In a key -/

section Key

variable (h : g.OpenAt p c b) (hg : g.Tidy)
  (hne : (g.openContext c (g.sectionTail p) b lookahead).candidates ≠ [])
  (hassign : assigned? (lastPiece b) = none) (hd : isKeyChar d = true)
include h hg hne hassign hd

/-- A character of a key is no evidence. -/
lemma OpenAt.resolveAt_key :
    g.resolveAt c (g.sectionTail p ++ [d]) (b ++ [d]) lookahead =
      g.resolveAt c (g.sectionTail p) b lookahead := by
  have hvalue := isValueChar_iff.mp (isValueChar_of_isKeyChar hd)
  rcases h.single_or_plain hg with ⟨id, hid⟩ | ⟨hlen, hb⟩
  · rw [resolveAt_of_single hid, resolveAt_of_single hid]
  · obtain ⟨key, hkey, hk⟩ := hg.selector_of_several c hlen
    have hp : ¬ key.toList ++ ['='] <+: lastPiece b := by
      rintro ⟨v, hv⟩
      rw [List.append_assoc, List.singleton_append] at hv
      have hval := isValue_of_candidates hg hlen hb hkey hk hv.symm hne
      rw [assigned?_eq_some_iff.mpr ⟨hk, hval, hv.symm⟩] at hassign
      cases hassign
    refine resolveAt_append_of_not_prefix hlen hkey hk hb (by simp [hvalue.1])
      (by simpa using hvalue.2.1.symm) hp fun hp' => ?_
    rcases List.prefix_concat_iff.mp hp' with heq | hp'
    · exact hvalue.2.2 (List.cons.inj (List.append_inj_right' heq rfl)).1.symm
    · exact hp hp'

/-- **One more character of a key.** -/
lemma OpenAt.classify_key :
    g.classify (p ++ [d]) lookahead =
      some { g.openContext c (g.sectionTail p) b lookahead with
        boundary := .insideElement
        field := none
        fragment := String.ofList (lastPiece b ++ [d])
        needsSeparator := false } := by
  have hvalue := isValueChar_iff.mp (isValueChar_of_isKeyChar hd)
  have hpiece : lastPiece (b ++ [d]) = lastPiece b ++ [d] := lastPiece_snoc hvalue.2.1 b
  have hassign' : assigned? (lastPiece b ++ [d]) = none := assigned?_snoc_of_none hassign hd
  obtain ⟨hopen, htail⟩ := h.append (t := [d]) (by simp [hvalue.1])
    fun s _ => SectionSpec.slotEnd?_of_assigned (by rw [hpiece, hassign'])
  have hclose : endsWith ')' (lastPiece b ++ [d]) = false := by
    rw [endsWith_append_singleton, beq_eq_false_iff_ne]
    rintro rfl
    exact absurd hd (by decide)
  have hctx : g.openContext c (g.sectionTail p ++ [d]) (b ++ [d]) lookahead =
      { g.openContext c (g.sectionTail p) b lookahead with
        boundary := .insideElement
        field := none
        fragment := String.ofList (lastPiece b ++ [d])
        needsSeparator := false } := by
    have hend : endsWith ')' (b ++ [d]) = false := by
      rw [← endsWith_lastPiece (by decide), hpiece, hclose]
    simp only [openContext, hassign', hassign, hpiece, hclose, hend,
      h.resolveAt_key hg hne hassign hd]
    cases g.resolveAt c (g.sectionTail p) b lookahead <;> simp [Context.ofResolution]
  rw [hopen.classify hg.toOneTableEach, htail, hctx]
  simpa [withKinds] using hne

end Key

/-- What is typed of a key is the last piece, unless a block ends there. -/
lemma openContext_fragment_of_none (hassign : assigned? (lastPiece b) = none) {tail : List Char}
    (hsep : (g.openContext c tail b lookahead).needsSeparator = false) :
    (g.openContext c tail b lookahead).fragment = String.ofList (lastPiece b) := by
  simp only [openContext, hassign] at hsep ⊢
  rw [endsWith_lastPiece (by decide), hsep]
  cases lastPiece b <;> rfl

/-! ### In a value -/

/-- One more character of a value goes on the value. -/
lemma lastPiece_value {key v : List Char} (hp : lastPiece b = key ++ '=' :: v) (hd : d ≠ ',') :
    lastPiece (b ++ [d]) = key ++ '=' :: (v ++ [d]) := by
  rw [lastPiece_snoc hd, hp]
  simp

/-- **One more character of a value** of another key than the selecting one. -/
lemma OpenAt.classify_value {key v : List Char} (h : g.OpenAt p c b) (hg : g.Tidy)
    (hassign : assigned? (lastPiece b) = some (key, v)) (hd : isValueChar d = true)
    (hne : (g.openContext c (g.sectionTail p) b lookahead).candidates ≠ [])
    (hfield : (g.kindsIn c).length = 1 ∨
      (g.openContext c (g.sectionTail p) b lookahead).field ≠ g.selector? c) :
    g.classify (p ++ [d]) lookahead =
      some { g.openContext c (g.sectionTail p) b lookahead with
        fragment := (g.openContext c (g.sectionTail p) b lookahead).fragment.push d } := by
  obtain ⟨hkey, hv, hp⟩ := assigned?_eq_some_iff.mp hassign
  obtain ⟨hplain, hcomma, -⟩ := isValueChar_iff.mp hd
  have hpiece := lastPiece_value hp hcomma
  have hsame : g.resolveAt c (g.sectionTail p ++ [d]) (b ++ [d]) lookahead =
      g.resolveAt c (g.sectionTail p) b lookahead := by
    rcases h.single_or_plain hg with ⟨id, hid⟩ | ⟨hlen, hb⟩
    · rw [resolveAt_of_single hid, resolveAt_of_single hid]
    · obtain ⟨sel, hsel, hk⟩ := hg.selector_of_several c hlen
      have hdiff : sel.toList ≠ key := by
        rintro rfl
        apply hfield.resolve_left (by omega)
        rw [openContext_field, hassign, hsel]
        simp
      have hno : ∀ w, ¬ sel.toList ++ ['='] <+: key ++ '=' :: w :=
        fun w hw => hdiff (hk.eq_of_prefix hkey hw)
      refine resolveAt_append_of_not_prefix hlen hsel hk hb (by simp [hplain])
        (by simpa using hcomma.symm) (by rw [hp]; exact hno v) ?_
      rw [← lastPiece_snoc hcomma, hpiece]
      exact hno (v ++ [d])
  rw [h.classify_assigned_of_same hg.toOneTableEach (by simp [hplain]) hkey (hv.snoc hd) hpiece
    (by simp) hne hsame]
  simp [openContext, hassign]

/-! ### In a value of the selecting key -/

/-- More text narrows the kinds further. -/
lemma kindsFrom_append (ids : List KindId) (v w : List Char) :
    g.kindsFrom (g.kindsFrom ids v) (v ++ w) = g.kindsFrom ids (v ++ w) := by
  unfold kindsFrom
  rw [List.filter_filter]
  refine List.filter_congr fun id _ => ?_
  rw [Bool.and_eq_left_iff_imp, any_discriminator, any_discriminator]
  rintro ⟨d, hd, hpre⟩
  rw [List.isPrefixOf_iff_prefix] at hpre
  exact ⟨d, hd, List.isPrefixOf_iff_prefix.mpr ((List.prefix_append v w).trans hpre)⟩

/-- No kind has what is no value. -/
lemma Tidy.isValue_of_kindsFrom (hg : g.Tidy) {v : List Char}
    (hne : g.kindsFrom (g.kindsIn c) v ≠ []) : IsValue v := by
  obtain ⟨id, hid⟩ := List.exists_mem_of_ne_nil _ hne
  obtain ⟨hmem, hany⟩ := List.mem_filter.mp hid
  obtain ⟨d, hd, hpre⟩ := any_discriminator.mp hany
  rw [List.isPrefixOf_iff_prefix] at hpre
  exact fun x hx => hg.isValue_discriminator c id hmem d hd x (hpre.subset hx)

section Selecting

variable {key : String} {v : List Char} (hlen : 1 < (standard.kindsIn c).length)
  (hkey : standard.selector? c = some key) (hk : IsKey key.toList)
  (hb : ∀ x ∈ b, isPlain x = true) (hp : lastPiece b = key.toList ++ '=' :: v) (hv : v ≠ [])
include hlen hkey hk hb hp hv

/-- A value that is being typed decides alone, whatever stands around the block. -/
lemma resolveAt_typing (tail lookahead : List Char) :
    standard.resolveAt c tail b lookahead =
      Resolution.ofKinds (standard.kindsFrom (standard.kindsIn c) v) := by
  have haccepts (d : Discriminator) : d.accepts (.typing v) = v.isPrefixOf d.value.toList := by
    simp [Discriminator.accepts, hv]
  rw [resolveAt_of_several hlen hkey hb, (getLast?_assignments_key hk hb hp).1, settle,
    if_neg (by simpa using hv), if_neg (by simp), select_standard c (o := .typing v) hv]
  simp only [haccepts, kindsFrom]

lemma openContext_typing (hval : IsValue v) (tail lookahead : List Char) :
    standard.openContext c tail b lookahead =
      { Context.ofResolution c .newFieldValue
          (Resolution.ofKinds (standard.kindsFrom (standard.kindsIn c) v)) with
        field := some key
        fragment := String.ofList v } := by
  simp only [openContext, assigned?_eq_some_iff.mpr ⟨hk, hval, hp⟩,
    resolveAt_typing hlen hkey hk hb hp hv, String.ofList_toList]

end Selecting

end Grammar

/-- The context with some of its kinds left and more typed. -/
def Context.narrowed (ctx : Context) (ids : List KindId) (fragment : String) : Context :=
  { ctx with
    kind := match ids with
      | [id] => some id
      | _ => none
    candidates := ids
    fragment := fragment }

namespace Grammar

variable {g : Grammar} {p b : List Char} {c : Container} {d : Char}

/-- **One more character of a value of the selecting key** that closes nothing and ends no field:
the kinds narrow, and a kind whose value does not go on so is out. -/
lemma OpenAt.classify_typing {key : String} {v : List Char} (h : standard.OpenAt p c b)
    (hlen : 1 < (standard.kindsIn c).length) (hkey : standard.selector? c = some key)
    (hassign : assigned? (lastPiece b) = some (key.toList, v)) (hv : v ≠ [])
    (hplain : isPlain d = true) (hcomma : d ≠ ',') (tail lookahead lookahead' : List Char) :
    standard.classify (p ++ [d]) lookahead' =
      if standard.kindsFrom (standard.kindsIn c) (v ++ [d]) = [] then none
      else some ((standard.openContext c tail b lookahead).narrowed
        (standard.kindsFrom (standard.kindsIn c) (v ++ [d])) (String.ofList (v ++ [d]))) := by
  obtain ⟨hk, hval, hp⟩ := assigned?_eq_some_iff.mp hassign
  have hb := h.plain_of_several standard_tidy hlen
  have hb' : ∀ x ∈ b ++ [d], isPlain x = true := plain_append hb (by simp [hplain])
  have hpiece := lastPiece_value hp hcomma
  obtain ⟨hopen, -⟩ := h.append (t := [d]) (by simp [hplain]) fun s _ => by
    -- a slot has no value, and this field has one
    refine SectionSpec.slotEnd?_of_value fun name hname => ?_
    obtain ⟨hkey', -, heq⟩ := assigned?_eq_some_iff.mp hname
    rw [hpiece] at heq
    obtain rfl := hk.eq_of_prefix hkey' ⟨v ++ [d], by rw [← heq]; simp⟩
    simpa using List.append_cancel_left heq
  rw [hopen.classify standard_tidy.toOneTableEach, withKinds, Option.filter_some]
  have hcandidates : (standard.openContext c (standard.sectionTail (p ++ [d])) (b ++ [d])
      lookahead').candidates = standard.kindsFrom (standard.kindsIn c) (v ++ [d]) := by
    rw [openContext_candidates, resolveAt_typing hlen hkey hk hb' hpiece (by simp),
      ofResolution_ofKinds]
  rw [hcandidates]
  by_cases hids : standard.kindsFrom (standard.kindsIn c) (v ++ [d]) = []
  · simp [hids]
  · have hval' := standard_tidy.isValue_of_kindsFrom hids
    rw [if_neg hids, if_pos (by simpa using hids),
      openContext_typing hlen hkey hk hb' hpiece (by simp) hval',
      openContext_typing hlen hkey hk hb hp hv hval, ofResolution_ofKinds, ofResolution_ofKinds]
    rfl

/-! ### Characters that lead nowhere -/

lemma classify_eq_none (h : ∀ o, g.reading? p ≠ some o) (lookahead : List Char) :
    g.classify p lookahead = none := by
  rw [classify_eq, Option.eq_none_iff_forall_ne_some.mpr h]

/-- A list that its last character closes is a row of closed elements before it. -/
lemma elementRow_of_closedEnd {r w : List Char} (h : ClosedEnd (r ++ [d]) w) (hr : ']' ∉ r) :
    ElementRow 1 r := by
  obtain ⟨L, comma, hL, -, -, heq⟩ := h
  rcases List.append_eq_append_iff.mp heq with ⟨y, rfl, hy⟩ | ⟨y, rfl, hy⟩
  · cases y with
    | nil => rwa [List.append_nil] at hL
    | cons x y => exact absurd (List.cons.inj hy).2 (by simp)
  · cases y with
    | nil => rwa [List.append_nil]
    | cons x y =>
      obtain ⟨rfl, -⟩ := List.cons.inj hy
      exact absurd (by simp) hr

/-- A character that leads nowhere from an open element or block leaves no context. -/
lemma StandsAt.classify_of_step_none {s : SectionSpec} {l : Level} (h : g.StandsAt p s l)
    (hg : g.OneTableEach) (hd : d ≠ '[') (hstep : l.step s.slotted d = none)
    (hlist : ∀ closed, l ≠ .list closed) (lookahead : List Char) :
    g.classify (p ++ [d]) lookahead = none := by
  obtain ⟨hs, q, r, hq, hscan, rfl⟩ := h
  have hsquare := not_mem_square_of_scan hscan
  have hr : '[' ∉ r ++ [d] := by simp [hsquare.1, hd.symm]
  rw [List.append_assoc, List.cons_append]
  refine classify_eq_none (fun o hread => ?_) lookahead
  cases o with
  | inSection code place =>
    obtain ⟨s', hs', -, hq', hplace⟩ := (reading?_inSection_iff hg.nodup hr).mp hread
    obtain rfl := List.inj_on_of_nodup_map hg.nodup hs' hs (SectionCode.opens_unique hq' hq)
    rw [scan_append, hscan, Option.bind_some, Level.run_singleton, hstep] at hplace
    cases hplace
  | between w =>
    -- the character would close the list, but then nothing is open before it
    have hend := ((reading?_between_iff hg.nonempty hr).mp hread).2
    have hrow : ElementRow true.toNat r := elementRow_of_closedEnd hend hsquare.2
    have hlevel := Level.run_list_row hrow
    rw [← scan, scan_true_of_scan hscan] at hlevel
    exact absurd (Option.some.inj hlevel) (hlist _)

/-- No section opens behind a text that does not end with `=`. -/
lemma classify_bracket_of_not_equals (hg : g.OneTableEach) (hp : endsWith '=' p = false)
    (lookahead : List Char) : g.classify (p ++ ['[']) lookahead = none := by
  have hq : ∀ code : SectionCode, ¬ code.opens p := by
    rintro code ⟨u, rfl⟩
    rw [← List.append_assoc, endsWith_append_singleton] at hp
    exact absurd hp (by decide)
  refine classify_eq_none (fun o hread => ?_) lookahead
  cases o with
  | inSection code place =>
    obtain ⟨s, -, -, hopens, -⟩ := (reading?_inSection_iff hg.nodup List.not_mem_nil).mp hread
    exact absurd hopens (hq s.code)
  | between w =>
    obtain ⟨⟨s, -, hopens⟩, -⟩ := (reading?_between_iff hg.nonempty List.not_mem_nil).mp hread
    exact absurd hopens (hq s.code)

/-- A text ends with `=` exactly if its open block does. -/
lemma OpenAt.endsWith_equals (h : g.OpenAt p c b) : endsWith '=' p = endsWith '=' b := by
  rcases h with ⟨s, ⟨-, q, r, -, hscan, rfl⟩, -, -⟩ | ⟨s, e, f, ⟨-, q, r, -, hscan, rfl⟩, -, -⟩
  · obtain ⟨L, -, -, rfl⟩ := scan_eq_some_iff.mp hscan
    rw [endsWith_append_cons (by decide), endsWith_append_cons (by decide)]
  · obtain ⟨-, L, -, -, -, rfl⟩ := scan_eq_some_iff.mp hscan
    rw [endsWith_append_cons (by decide), endsWith_append_cons (by decide),
      endsWith_append_cons (by decide)]

/-- **A bracket in a value** of a container with several kinds leaves no context, unless it closes
the block. -/
lemma OpenAt.classify_bracket {key v : List Char} (h : g.OpenAt p c b) (hg : g.Tidy)
    (hlen : 1 < (g.kindsIn c).length) (hassign : assigned? (lastPiece b) = some (key, v))
    (hv : v ≠ []) (hd : isPlain d = false) (hclose : d ≠ ')') (lookahead : List Char) :
    g.classify (p ++ [d]) lookahead = none := by
  by_cases hsquare : d = '['
  · rw [hsquare]
    obtain ⟨-, hval, hp⟩ := assigned?_eq_some_iff.mp hassign
    apply classify_bracket_of_not_equals hg.toOneTableEach
    rw [h.endsWith_equals, ← endsWith_lastPiece (by decide), hp]
    obtain ⟨u, x, rfl⟩ := (List.eq_nil_or_concat v).resolve_left hv
    rw [List.concat_eq_append] at hval ⊢
    rw [← List.cons_append, ← List.append_assoc, endsWith_append_singleton, beq_eq_false_iff_ne]
    rintro rfl
    exact hval.not_mem_equals (by simp)
  · rcases h with ⟨s, hs, -, rfl⟩ | ⟨s, e, f, hs, -, -⟩
    · have hslotted : s.slotted = false := by
        rw [Bool.eq_false_iff]
        intro hslotted
        have := hg.single_of_slotted s hs.1 hslotted
        omega
      exact hs.classify_of_step_none hg.toOneTableEach hsquare
        (by simp [Level.step, hd, hclose, hslotted]) (by simp) lookahead
    · exact hs.classify_of_step_none hg.toOneTableEach hsquare
        (by simp [Level.step, hd, hclose]) (by simp) lookahead

/-! ### Ordinary characters -/

lemma exists_container {lookahead : List Char} {ctx : Context}
    (h : g.classify p lookahead = some ctx) (hb : ctx.boundary ≠ .newElement) :
    ∃ c, ctx.container = some c := by
  rcases classify_kinds h with ⟨w, sep, rfl⟩ | ⟨c, hc, -⟩
  · exact absurd rfl hb
  · exact ⟨c, hc⟩

/-- **Ordinary characters keep the context.** A character of a key goes on the key, and the kinds
stay. A character of a value goes on the value, and all else stays, unless the key is the selecting
one: then those kinds stay whose value begins with what is typed, in their order, whatever the rest
of the line says, and there is no context if there are none. -/
theorem classify_append_char (p lookahead : List Char) (d : Char) (ctx : Context)
    (h : standard.classify p lookahead = some ctx) :
    (ctx.boundary = .fieldBoundary ∨ ctx.boundary = .insideElement → isKeyChar d = true →
      ∃ fragment, (ctx.needsSeparator = false → fragment = ctx.fragment.push d) ∧
        standard.classify (p ++ [d]) lookahead = some { ctx with
          boundary := .insideElement
          field := none
          fragment := fragment
          needsSeparator := false }) ∧
    ∀ c, ctx.container = some c → ctx.boundary = .newFieldValue →
      ((standard.kindsIn c).length = 1 ∨ ctx.field ≠ standard.selector? c → isValueChar d = true →
        standard.classify (p ++ [d]) lookahead =
          some { ctx with fragment := ctx.fragment.push d }) ∧
      (1 < (standard.kindsIn c).length → ctx.field = standard.selector? c → ctx.fragment ≠ "" →
        d ≠ ',' → d ≠ ')' → ∀ lookahead',
        let ids := standard.kindsFrom ctx.candidates (ctx.fragment.push d).toList
        standard.classify (p ++ [d]) lookahead' =
          if ids = [] then none else some (ctx.narrowed ids (ctx.fragment.push d))) := by
  have hg := standard_tidy
  refine ⟨fun hb hd => ?_, fun c hc hb => ?_⟩
  · have hb' : ctx.boundary ≠ .newElement := by rcases hb with hb | hb <;> simp [hb]
    obtain ⟨c, hc⟩ := exists_container h hb'
    obtain ⟨b, hopen, rfl, hne⟩ := exists_openAt hg.toOneTableEach h hc hb'
    have hassign : assigned? (lastPiece b) = none :=
      assigned?_of_boundary_ne (by rcases hb with hb | hb <;> rw [hb] <;> decide)
    refine ⟨_, fun hsep => ?_, hopen.classify_key hg hne hassign hd⟩
    rw [openContext_fragment_of_none hassign hsep]
    simp
  · obtain ⟨b, hopen, rfl, hne⟩ := exists_openAt hg.toOneTableEach h hc (by simp [hb])
    obtain ⟨key, v, hassign⟩ := assigned?_of_boundary hb
    refine ⟨fun hfield hd => hopen.classify_value hg hassign hd hne hfield, ?_⟩
    intro hlen hfield hfragment hcomma hclose lookahead'
    obtain ⟨sel, hsel, hk⟩ := hg.selector_of_several c hlen
    rw [openContext_field, hassign, hsel, Option.map_some, Option.some.injEq] at hfield
    obtain rfl : key = sel.toList := by rw [← hfield, String.toList_ofList]
    rw [openContext_fragment hassign] at hfragment ⊢
    have hv : v ≠ [] := fun hnil => hfragment (by rw [hnil])
    obtain ⟨-, hval, hp⟩ := assigned?_eq_some_iff.mp hassign
    have hb := hopen.plain_of_several hg hlen
    have hpush : (String.ofList v).push d = String.ofList (v ++ [d]) := by simp
    have hids : standard.kindsFrom
        (standard.openContext c (standard.sectionTail p) b lookahead).candidates (v ++ [d]) =
        standard.kindsFrom (standard.kindsIn c) (v ++ [d]) := by
      rw [openContext_typing hlen hsel hk hb hp hv hval, ofResolution_ofKinds, kindsFrom_append]
    simp only [hpush, String.toList_ofList, hids]
    by_cases hplain : isPlain d = true
    · exact hopen.classify_typing hlen hsel hassign hv hplain hcomma _ _ lookahead'
    · rw [Bool.not_eq_true] at hplain
      have hnil : standard.kindsFrom (standard.kindsIn c) (v ++ [d]) = [] := by
        by_contra hids'
        have hvalue := hg.isValue_of_kindsFrom hids' d (by simp)
        rw [(isValueChar_iff.mp hvalue).1] at hplain
        cases hplain
      rw [if_pos hnil, hopen.classify_bracket hg hlen hassign hv hplain hclose]

/-- `stdp` may become two kinds, and one more character settles which, against the rest of the
line. A character of another value stays in it, and one behind a closed block begins a key. -/
theorem classify_append_char_learning :
    standard.classify ("LRN=[(fnc=stdp".toList ++ ['h']) ",fnc=flat".toList =
      some ⟨some (.ofSection .learning), .newFieldValue, some ⟨.ofSection .learning, "stdph"⟩,
        [⟨.ofSection .learning, "stdph"⟩], some "fnc", "stdph", false⟩ ∧
    standard.classify ("LRN=[(lid=a".toList ++ ['/']) ",fnc=flat".toList =
      some ⟨some (.ofSection .learning), .newFieldValue, some ⟨.ofSection .learning, "flat"⟩,
        [⟨.ofSection .learning, "flat"⟩], some "lid", "a/", false⟩ ∧
    ∃ fragment, standard.classify ("NRN=[(LOC=()".toList ++ ['n']) [] =
      some ⟨some (.ofSection .neurons), .insideElement, some ⟨.ofSection .neurons, "neuron"⟩,
        [⟨.ofSection .neurons, "neuron"⟩], none, fragment, false⟩ := by
  have hselecting : standard.classify "LRN=[(fnc=stdp".toList ",fnc=flat".toList =
      some ⟨some (.ofSection .learning), .newFieldValue, none,
        [⟨.ofSection .learning, "stdph"⟩, ⟨.ofSection .learning, "stdpa"⟩], some "fnc", "stdp",
        false⟩ := by decide +kernel
  have hvalue : standard.classify "LRN=[(lid=a".toList ",fnc=flat".toList =
      some ⟨some (.ofSection .learning), .newFieldValue, some ⟨.ofSection .learning, "flat"⟩,
        [⟨.ofSection .learning, "flat"⟩], some "lid", "a", false⟩ := by decide +kernel
  have hblock : standard.classify "NRN=[(LOC=()".toList [] =
      some ⟨some (.ofSection .neurons), .fieldBoundary, some ⟨.ofSection .neurons, "neuron"⟩,
        [⟨.ofSection .neurons, "neuron"⟩], none, "", true⟩ := by decide +kernel
  refine ⟨?_, ?_, ?_⟩
  · rw [((classify_append_char _ _ 'h' _ hselecting).2 (.ofSection .learning) rfl rfl).2
      (by decide) (by decide) (by decide) (by decide) (by decide)]
    decide
  · rw [((classify_append_char _ _ '/' _ hvalue).2 (.ofSection .learning) rfl rfl).1
      (Or.inr (by decide)) (by decide)]
    decide
  · obtain ⟨fragment, -, hkey⟩ :=
      (classify_append_char _ _ 'n' _ hblock).1 (Or.inl rfl) (by decide)
    exact ⟨fragment, hkey⟩

/-- A comma is no ordinary character in a value of the selecting key: no kind has a value that
begins with `flat,`, and yet there is a context, of the kind that `flat` names. -/
theorem comma_settles_value :
    ∃ ctx ctx', standard.classify "LRN=[(fnc=flat".toList [] = some ctx ∧
      ctx.container = some (.ofSection .learning) ∧ ctx.boundary = .newFieldValue ∧
      1 < (standard.kindsIn (.ofSection .learning)).length ∧
      ctx.field = standard.selector? (.ofSection .learning) ∧ ctx.fragment ≠ "" ∧
      standard.kindsFrom ctx.candidates (ctx.fragment.push ',').toList = [] ∧
      standard.classify ("LRN=[(fnc=flat".toList ++ [',']) [] = some ctx' ∧
      ctx'.candidates = [⟨.ofSection .learning, "flat"⟩] := by
  refine ⟨⟨some (.ofSection .learning), .newFieldValue, some ⟨.ofSection .learning, "flat"⟩,
    [⟨.ofSection .learning, "flat"⟩], some "fnc", "flat", false⟩,
    standard.blankContext (.ofSection .learning) .fieldBoundary false |>.narrowed
      [⟨.ofSection .learning, "flat"⟩] "", ?_⟩
  decide +kernel

end Grammar

end TopologyAssist
