import TopologyAssist.Proofs.Contexts

/-!
Evidence in an open block, by its last piece.

A container with several kinds is settled by the last value that its block assigns to the selecting
key. In a block without blocks in it that value is in the last piece, or it is the last one of the
earlier fields, which no later text can change.
-/

namespace TopologyAssist

/-! ### Assignments behind earlier fields -/

lemma dropBlocks_plain {u : List Char} (hu : ∀ c ∈ u, isPlain c = true) : dropBlocks 0 u = u := by
  induction u with
  | nil => rfl
  | cons c u ih =>
    obtain ⟨h1, h2, -, -⟩ := isPlain_iff.mp (hu c (by simp))
    rw [dropBlocks, if_neg h1, if_neg h2, if_pos rfl,
      ih fun d hd => hu d (List.mem_cons_of_mem _ hd)]

lemma FieldsBefore.assignments {key e : List Char} (hkey : IsKey key) (he : FieldsBefore 0 e)
    (v : List Char) :
    TopologyAssist.assignments key (e ++ v) =
      TopologyAssist.assignments key e ++ TopologyAssist.assignments key v := by
  rcases he with rfl | ⟨b, hb, rfl⟩
  · rfl
  · rw [List.append_assoc, List.singleton_append]
    exact assignments_append hkey (Nested.zero_iff.mp hb) v

/-- A block is its earlier fields and its last piece. -/
lemma exists_last_piece {b : List Char} (hb : ∀ c ∈ b, isPlain c = true) :
    ∃ e, FieldsBefore 0 e ∧ b = e ++ lastPiece b ∧ ',' ∉ lastPiece b ∧
      ∀ c ∈ lastPiece b, isPlain c = true := by
  rcases not_mem_or_split_last ',' b with h | ⟨u, v, hv, rfl⟩
  · rw [lastPiece_of_not_mem h]
    exact ⟨[], Or.inl rfl, rfl, h, hb⟩
  · rw [lastPiece_append hv]
    refine ⟨u ++ [','], Or.inr ⟨u, Nested.of_plain fun c hc => hb c (by simp [hc]), rfl⟩, by simp,
      hv, fun c hc => hb c (by simp [hc])⟩

section

variable {key b : List Char} (hkey : IsKey key) (hb : ∀ c ∈ b, isPlain c = true)
include hkey hb

/-- A last piece that does not assign to the key leaves the last value as it is, and so does a
comma behind it. -/
lemma getLast?_assignments_comma (hp : ¬ key ++ ['='] <+: lastPiece b) :
    (assignments key (b ++ [','])).getLast? = (assignments key b).getLast? := by
  obtain ⟨e, he, hbe, hc, hplain⟩ := exists_last_piece hb
  generalize lastPiece b = piece at *
  subst hbe
  rw [List.append_assoc, he.assignments hkey, he.assignments hkey,
    assignments_piece_comma hkey hplain hc, assignments_piece hkey hplain hc, if_neg hp, if_neg hp]
  simp [assignments, mentions]

/-- A last piece that assigns to the key gives the last value, still being typed; a comma behind
it ends the value. -/
lemma getLast?_assignments_key {v : List Char} (hp : lastPiece b = key ++ '=' :: v) :
    (assignments key b).getLast? = some ⟨v, false⟩ ∧
      (assignments key (b ++ [','])).getLast? = some ⟨v, true⟩ := by
  obtain ⟨e, he, hbe, hc, hplain⟩ := exists_last_piece hb
  have hpre : key ++ ['='] <+: lastPiece b := ⟨v, by rw [hp]; simp⟩
  have hdrop : (lastPiece b).drop (key ++ ['=']).length = v := by
    rw [hp, show key ++ '=' :: v = (key ++ ['=']) ++ v by simp, List.drop_left]
  generalize lastPiece b = piece at *
  subst hbe
  rw [List.append_assoc, he.assignments hkey, he.assignments hkey,
    assignments_piece_comma hkey hplain hc, assignments_piece hkey hplain hc, if_pos hpre,
    if_pos hpre, hdrop]
  simp [assignments, mentions]

/-- Text that goes on the last piece changes no value of the key, unless the piece assigns to it. -/
lemma assignments_append_piece {t : List Char} (ht : ∀ c ∈ t, isPlain c = true) (hcomma : ',' ∉ t)
    (hp : ¬ key ++ ['='] <+: lastPiece b) (hp' : ¬ key ++ ['='] <+: lastPiece b ++ t) :
    assignments key (b ++ t) = assignments key b := by
  obtain ⟨e, he, hbe, hc, hplain⟩ := exists_last_piece hb
  generalize lastPiece b = piece at *
  subst hbe
  have hplain' : ∀ c ∈ piece ++ t, isPlain c = true := by
    intro c h
    exact (List.mem_append.mp h).elim (hplain c) (ht c)
  have hc' : ',' ∉ piece ++ t := fun h => (List.mem_append.mp h).elim hc hcomma
  rw [List.append_assoc, he.assignments hkey, he.assignments hkey,
    assignments_piece hkey hplain' hc', assignments_piece hkey hplain hc, if_neg hp, if_neg hp']

end

/-- Two keys before the first `=` of a text are one. -/
lemma IsKey.eq_of_prefix {key key' v : List Char} (hkey : IsKey key) (hkey' : IsKey key')
    (h : key ++ ['='] <+: key' ++ '=' :: v) : key = key' := by
  obtain ⟨t, ht⟩ := h
  rw [List.append_assoc, List.singleton_append] at ht
  exact (split_unique hkey.isValue.not_mem_equals hkey'.isValue.not_mem_equals ht).1

/-! ### What the last value leaves of the kinds -/

/-- What the kinds left say of the kind. -/
def Resolution.ofKinds : List KindId → Resolution
  | [] => .rejected
  | [id] => .resolved id
  | ids => .ambiguous ids

lemma Resolution.ofKinds_of_several {ids : List KindId} (h : 1 < ids.length) :
    ofKinds ids = .ambiguous ids := by
  match ids, h with
  | _ :: _ :: _, _ => rfl

namespace Grammar

variable {g : Grammar} {c : Container}

/-- The kinds whose value begins with the text. -/
def kindsFrom (g : Grammar) (ids : List KindId) (v : List Char) : List KindId :=
  ids.filter fun id => (g.discriminator? id).any fun d => v.isPrefixOf d.value.toList

lemma any_discriminator {id : KindId} {P : Discriminator → Bool} :
    (g.discriminator? id).any P = true ↔ ∃ x ∈ g.discriminator? id, P x = true := by
  cases g.discriminator? id <;> simp

/-- The kinds that the last value in a block leaves, of a container with several kinds. -/
def settle (g : Grammar) (c : Container) (key history lookahead : List Char) :
    Option Assignment → Resolution
  | some a =>
    if a.value.isEmpty then g.resolveEmpty c history
    else if a.terminated then g.select (g.kindsIn c) (.complete a.value)
    else g.select (g.kindsIn c) (.typing a.value)
  | none =>
    match (assignments key (clipBlock lookahead)).head? with
    | some a =>
      if a.value.isEmpty then .ambiguous (g.kindsIn c)
      else g.select (g.kindsIn c) (.complete a.value)
    | none => .ambiguous (g.kindsIn c)

lemma resolve_of_single {id : KindId} (h : g.kindsIn c = [id]) (e : Evidence) :
    g.resolve c e = .resolved id := by
  simp [resolve, h]

lemma resolveAt_of_single {id : KindId} (h : g.kindsIn c = [id]) (tail scope lookahead : List Char) :
    g.resolveAt c tail scope lookahead = .resolved id :=
  resolve_of_single h _

/-- With several kinds the last value of a block settles them, the blocks in it left out. -/
lemma resolve_of_several (hlen : 1 < (g.kindsIn c).length) {key : String}
    (hkey : g.selector? c = some key) (e : Evidence) :
    g.resolve c e = g.settle c key.toList e.history e.lookahead
      (assignments key.toList (dropBlocks 0 e.scope)).getLast? := by
  unfold resolve
  split
  · rename_i id hids
    rw [hids] at hlen
    exact absurd hlen (by simp)
  · simp only [hkey]
    cases (assignments key.toList (dropBlocks 0 e.scope)).getLast? <;> rfl

lemma resolveAt_of_several (hlen : 1 < (g.kindsIn c).length) {key : String}
    (hkey : g.selector? c = some key) {scope : List Char} (hscope : ∀ x ∈ scope, isPlain x = true)
    (tail lookahead : List Char) :
    g.resolveAt c tail scope lookahead = g.settle c key.toList (textBefore tail scope) lookahead
      (assignments key.toList scope).getLast? := by
  rw [resolveAt, resolve_of_several hlen hkey, dropBlocks_plain hscope]

/-- An empty block without anything behind it leaves every kind. -/
lemma resolve_empty (history : List Char) : g.resolve c ⟨[], [], history⟩ = g.allKinds c := by
  unfold resolve allKinds
  cases g.kindsIn c with
  | nil => cases g.selector? c <;> rfl
  | cons id ids =>
    cases ids with
    | nil => rfl
    | cons id' ids => cases g.selector? c <;> rfl

/-- No value of a kind has the characters that are found, so no kind is left. -/
lemma select_typing_of_not_isValue {ids : List KindId}
    (hids : ∀ id ∈ ids, ∀ d ∈ g.discriminator? id, IsValue d.value.toList) {v : List Char}
    (hv : ¬ IsValue v) : g.select ids (.typing v) = .rejected := by
  have hno : ∀ id ∈ ids, ∀ d ∈ g.discriminator? id, ¬ v <+: d.value.toList := by
    intro id hid d hd hpre
    exact hv fun c hc => hids id hid d hd c (hpre.subset hc)
  have hexact : g.exactKind? ids v = none := by
    refine List.find?_eq_none.mpr fun id hid => ?_
    rw [Option.any_eq_true_iff_get]
    rintro ⟨hsome, hacc⟩
    simp only [Discriminator.accepts, beq_iff_eq] at hacc
    exact hno id hid _ (Option.get_mem hsome) (hacc ▸ List.prefix_rfl)
  have hfilter : (ids.filter fun id => (g.discriminator? id).any fun d => d.accepts (.typing v)) =
      [] := by
    refine List.filter_eq_nil_iff.mpr fun id hid => ?_
    rw [Option.any_eq_true_iff_get]
    rintro ⟨hsome, hacc⟩
    simp only [Discriminator.accepts, Bool.and_eq_true, List.isPrefixOf_iff_prefix] at hacc
    exact hno id hid _ (Option.get_mem hsome) hacc.2
  rw [select, Observed.value, hexact]
  simp only [hfilter]

/-- A complete value that no kind has leaves none. -/
lemma select_complete (ids : List KindId) (v : List Char) :
    g.select ids (.complete v) =
      match g.exactKind? ids v with
      | some id => .resolved id
      | none => .rejected := by
  rw [select, Observed.value]
  cases h : g.exactKind? ids v with
  | some id => rfl
  | none =>
    have hfilter : (ids.filter fun id =>
        (g.discriminator? id).any fun d => d.accepts (.complete v)) = [] :=
      List.filter_eq_nil_iff.mpr fun id hid => List.find?_eq_none.mp h id hid
    simp only [hfilter]

/-- A value that is being typed and that no kind has leaves the kinds whose value begins so. -/
lemma select_typing (ids : List KindId) {v : List Char} (hv : v ≠ []) :
    g.select ids (.typing v) =
      match g.exactKind? ids v with
      | some id => .resolved id
      | none => Resolution.ofKinds (g.kindsFrom ids v) := by
  have haccepts (d : Discriminator) : d.accepts (.typing v) = v.isPrefixOf d.value.toList := by
    simp [Discriminator.accepts, hv]
  rw [select, Observed.value]
  simp only [haccepts]
  cases g.exactKind? ids v <;> rfl

end Grammar

/-- The text before a block stays what it is when text is added to both. -/
lemma textBefore_append_both (w b t : List Char) :
    textBefore (w ++ t) (b ++ t) = textBefore w b := by
  unfold textBefore
  rw [List.length_append, List.length_append, Nat.add_sub_add_right,
    List.take_append_of_le_length (by omega)]

end TopologyAssist
