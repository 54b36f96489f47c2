import TopologyAssist.Proofs.Evidence

/-!
Evidence field by field.

The search for evidence never divides a block into its fields: it looks for the selecting key and
`=` all over the text, drops a mention by the character before it, and reads on to the next
delimiter. Here the block is divided first.

* `WithoutBlocks scope flat` — `flat` is what is left of `scope` without the blocks in it;
* `fieldValues key fields` — the values of the fields that begin with the key and `=`;
* `Grammar.byFields` — which kinds the fields leave: the last value in the block decides, then an
  earlier declaration if it is empty, then the first value ahead if there is none;
* `resolve_eq_byFields` — the search leaves the same kinds.
-/

namespace TopologyAssist

/-! ### A block without the blocks in it -/

/-- Text whose parentheses are groups without parentheses in them, and the text without those
groups. -/
inductive WithoutBlocks : List Char → List Char → Prop where
  | nil : WithoutBlocks [] []
  | plain {c : Char} {u flat : List Char} (hc : isPlain c = true) (hu : WithoutBlocks u flat) :
    WithoutBlocks (c :: u) (c :: flat)
  | block {v u flat : List Char} (hv : ∀ c ∈ v, isPlain c = true) (hu : WithoutBlocks u flat) :
    WithoutBlocks ('(' :: (v ++ ')' :: u)) flat

/-- Blocks can be taken out of a text exactly if its groups hold no others. -/
lemma nested_one_iff_exists_withoutBlocks {scope : List Char} :
    Nested 1 scope ↔ ∃ flat, WithoutBlocks scope flat := by
  constructor
  · intro h
    generalize hd : 1 = depth at h
    induction h with
    | nil => exact ⟨[], .nil⟩
    | plain hc _ ih =>
      obtain ⟨flat, hflat⟩ := ih hd
      exact ⟨_, .plain hc hflat⟩
    | group hv _ _ ih =>
      obtain ⟨flat, hflat⟩ := ih hd
      obtain rfl := Nat.succ.inj hd
      exact ⟨flat, .block (Nested.zero_iff.mp hv) hflat⟩
  · rintro ⟨flat, h⟩
    induction h with
    | nil => exact .nil
    | plain hc _ ih => exact .plain hc ih
    | block hv _ ih => exact .group (.of_plain hv) ih

/-- Inside a block nothing is kept, up to the parenthesis that closes it. -/
lemma dropBlocks_inside {v : List Char} (hv : ∀ c ∈ v, isPlain c = true) (u : List Char) :
    dropBlocks 1 (v ++ ')' :: u) = dropBlocks 0 u := by
  induction v with
  | nil => simp [dropBlocks]
  | cons c v ih =>
    obtain ⟨hopen, hclose, -, -⟩ := isPlain_iff.mp (hv c (by simp))
    rw [List.cons_append, dropBlocks, if_neg hopen, if_neg hclose, if_neg Nat.one_ne_zero]
    exact ih fun d hd => hv d (List.mem_cons_of_mem _ hd)

namespace WithoutBlocks

variable {scope flat : List Char}

/-- Text without parentheses before a block stays. -/
lemma plain_append {u : List Char} (hu : ∀ c ∈ u, isPlain c = true) (h : WithoutBlocks scope flat) :
    WithoutBlocks (u ++ scope) (u ++ flat) := by
  induction u with
  | nil => exact h
  | cons c u ih => exact .plain (hu c (by simp)) (ih fun d hd => hu d (List.mem_cons_of_mem _ hd))

lemma plain_flat (h : WithoutBlocks scope flat) : ∀ c ∈ flat, isPlain c = true := by
  induction h with
  | nil => simp
  | plain hc _ ih => simpa [hc] using ih
  | block _ _ ih => exact ih

lemma dropBlocks_eq (h : WithoutBlocks scope flat) : dropBlocks 0 scope = flat := by
  induction h with
  | nil => rfl
  | plain hc _ ih =>
    obtain ⟨hopen, hclose, -, -⟩ := isPlain_iff.mp hc
    rw [dropBlocks, if_neg hopen, if_neg hclose, if_pos rfl, ih]
  | block hv _ ih => rw [dropBlocks, if_pos rfl, dropBlocks_inside hv, ih]

end WithoutBlocks

/-! ### The values of fields -/

/-- The values of the fields that begin with the key and `=`. Only the last field is still being
typed. -/
def fieldValues (key : List Char) : List (List Char) → List Assignment
  | [] => []
  | field :: rest =>
    match field.dropPrefix? (key ++ ['=']) with
    | some v => ⟨v, !rest.isEmpty⟩ :: fieldValues key rest
    | none => fieldValues key rest

lemma fieldValues_cons (key field : List Char) (rest : List (List Char)) :
    fieldValues key (field :: rest) =
      (if key ++ ['='] <+: field then [⟨field.drop (key ++ ['=']).length, !rest.isEmpty⟩]
        else []) ++ fieldValues key rest := by
  rw [fieldValues]
  by_cases h : key ++ ['='] <+: field
  · obtain ⟨v, rfl⟩ := h
    rw [List.dropPrefix?_append_of_beq v (beq_self_eq_true _), List.drop_left,
      if_pos (List.prefix_append _ _)]
    rfl
  · have hnone : field.dropPrefix? (key ++ ['=']) = none := by
      refine Option.eq_none_iff_forall_ne_some.mpr fun v hv => h ?_
      obtain ⟨p, rfl, hp⟩ := List.dropPrefix?_eq_some_iff.mp hv
      rw [beq_iff_eq.mp hp]
      exact List.prefix_append _ _
    rw [hnone, if_neg h, List.nil_append]

/-- **The values that a text assigns to a key are those of its fields.** -/
theorem assignments_eq_fieldValues {key : List Char} (hkey : IsKey key) {b : List Char}
    (hb : ∀ c ∈ b, isPlain c = true) :
    assignments key b = fieldValues key (b.splitOn ',') := by
  -- by induction on the number of characters, one field at a time
  induction hlen : b.length using Nat.strongRecOn generalizing b with
  | _ n ih =>
    rcases not_mem_or_split ',' b with h | ⟨field, rest, hfield, rfl⟩
    · rw [assignments_piece hkey hb h, List.splitOn_eq_singleton h, fieldValues_cons, fieldValues,
        List.append_nil]
      rfl
    · have hplain : ∀ c ∈ field, isPlain c = true := fun c hc => hb c (by simp [hc])
      have hrest : ∀ c ∈ rest, isPlain c = true := fun c hc => hb c (by simp [hc])
      have hshort : rest.length < n := by
        rw [← hlen, List.length_append, List.length_cons]
        omega
      have hmore : (rest.splitOn ',').isEmpty = false := by
        simp [List.splitOn_ne_nil]
      rw [assignments_piece_comma hkey hplain hfield, ih _ hshort hrest rfl,
        List.splitOn_append_cons_self_of_not_mem hfield, fieldValues_cons, hmore]
      rfl

/-! ### What the fields leave of the kinds -/

namespace Grammar

variable {g : Grammar} {c : Container}

/-- The first kind that has the value. -/
def kindWith? (g : Grammar) (ids : List KindId) (v : List Char) : Option KindId :=
  ids.find? fun id => (g.discriminator? id).map (fun d => d.value.toList) == some v

lemma exactKind?_eq_kindWith? (ids : List KindId) (v : List Char) :
    g.exactKind? ids v = g.kindWith? ids v := by
  unfold exactKind? kindWith?
  congr 1
  funext id
  cases g.discriminator? id with
  | none => rfl
  | some d => simp [Discriminator.accepts, Option.some_beq_some]

/-- The kind that has the value, else what is left otherwise. -/
def named (g : Grammar) (c : Container) (v : List Char) (otherwise : Resolution) : Resolution :=
  match g.kindWith? (g.kindsIn c) v with
  | some id => .resolved id
  | none => otherwise

/-- The kinds of a container that the fields of a block leave, with the fields ahead of the cursor
and the text before the block. -/
def byFields (g : Grammar) (c : Container) (key : List Char) (fields ahead : List (List Char))
    (history : List Char) : Resolution :=
  match (fieldValues key fields).getLast? with
  | some ⟨[], _⟩ =>
    match g.lastDeclared? c history with
    | some v => g.named c v (.ambiguous (g.kindsIn c))
    | none => .ambiguous (g.kindsIn c)
  | some ⟨v, true⟩ => g.named c v .rejected
  | some ⟨v, false⟩ => g.named c v (.ofKinds (g.kindsFrom (g.kindsIn c) v))
  | none =>
    match (fieldValues key ahead).head? with
    | none | some ⟨[], _⟩ => .ambiguous (g.kindsIn c)
    | some ⟨v, _⟩ => g.named c v .rejected

lemma select_complete_eq_named (v : List Char) :
    g.select (g.kindsIn c) (.complete v) = g.named c v .rejected := by
  rw [select_complete, exactKind?_eq_kindWith?]
  rfl

lemma select_typing_eq_named {v : List Char} (hv : v ≠ []) :
    g.select (g.kindsIn c) (.typing v) =
      g.named c v (.ofKinds (g.kindsFrom (g.kindsIn c) v)) := by
  rw [select_typing _ hv, exactKind?_eq_kindWith?]
  rfl

lemma resolveEmpty_eq_named (history : List Char) :
    g.resolveEmpty c history =
      match g.lastDeclared? c history with
      | some v => g.named c v (.ambiguous (g.kindsIn c))
      | none => .ambiguous (g.kindsIn c) := by
  unfold resolveEmpty
  cases g.lastDeclared? c history with
  | none => rfl
  | some v =>
    rw [Option.bind_some, exactKind?_eq_kindWith?]
    rfl

/-- **Evidence is what the fields say, in the order of precedence.** Take the blocks out of the
open block and divide it at its commas. The last field that assigns to the selecting key decides:
without a value, by the value most recently declared before; with a comma behind it, by the kind
that has the value; as the last field, by that kind or else by all whose value begins so. Without
such a field the first one ahead that assigns to the key decides, up to the next bracket. -/
theorem resolve_eq_byFields {key : String} (hlen : 1 < (g.kindsIn c).length)
    (hselector : g.selector? c = some key) (hkey : IsKey key.toList) {scope : List Char}
    (hscope : Nested 1 scope) :
    (∃ flat, WithoutBlocks scope flat) ∧
      ∀ flat, WithoutBlocks scope flat → ∀ lookahead history,
        g.resolve c ⟨scope, lookahead, history⟩ =
          g.byFields c key.toList (flat.splitOn ',') ((lookahead.takeWhile isPlain).splitOn ',')
            history := by
  refine ⟨nested_one_iff_exists_withoutBlocks.mp hscope, fun flat hflat lookahead history => ?_⟩
  have hahead : assignments key.toList (clipBlock lookahead) =
      fieldValues key.toList ((lookahead.takeWhile isPlain).splitOn ',') :=
    assignments_eq_fieldValues hkey fun x hx => List.mem_takeWhile_imp hx
  rw [resolve_of_several hlen hselector, hflat.dropBlocks_eq,
    assignments_eq_fieldValues hkey hflat.plain_flat]
  unfold settle byFields
  cases (fieldValues key.toList (flat.splitOn ',')).getLast? with
  | some a =>
    obtain ⟨v, terminated⟩ := a
    cases v with
    | nil => exact resolveEmpty_eq_named history
    | cons x v =>
      cases terminated with
      | true => exact select_complete_eq_named _
      | false => exact select_typing_eq_named (by simp)
  | none =>
    simp only [hahead]
    cases (fieldValues key.toList ((lookahead.takeWhile isPlain).splitOn ',')).head? with
    | none => rfl
    | some a =>
      obtain ⟨v, terminated⟩ := a
      cases v with
      | nil => rfl
      | cons x v => exact select_complete_eq_named _

/-- A value in a block is passed over, and the value being typed leaves two of four kinds. -/
theorem resolve_eq_byFields_learning :
    Nested 1 "lid=(fnc=flat),fnc=stdp".toList ∧
    standard.resolve (.ofSection .learning)
        ⟨"lid=(fnc=flat),fnc=stdp".toList, "fnc=none".toList, []⟩ =
      .ambiguous [⟨.ofSection .learning, "stdph"⟩, ⟨.ofSection .learning, "stdpa"⟩] := by
  have hscope : "lid=(fnc=flat),fnc=stdp".toList =
      "lid=".toList ++ '(' :: ("fnc=flat".toList ++ ')' :: (",fnc=stdp".toList ++ [])) := by decide
  have hflat : WithoutBlocks "lid=(fnc=flat),fnc=stdp".toList
      ("lid=".toList ++ (",fnc=stdp".toList ++ [])) := by
    have hrest : WithoutBlocks (",fnc=stdp".toList ++ []) (",fnc=stdp".toList ++ []) :=
      .plain_append (List.all_eq_true.mp (by decide)) .nil
    rw [hscope]
    exact .plain_append (List.all_eq_true.mp (by decide))
      (.block (List.all_eq_true.mp (by decide)) hrest)
  have hnested := nested_one_iff_exists_withoutBlocks.mpr ⟨_, hflat⟩
  have hselector : standard.selector? (.ofSection .learning) = some "fnc" := by decide
  refine ⟨hnested, ?_⟩
  rw [(resolve_eq_byFields (by decide) hselector (by decide) hnested).2 _ hflat]
  decide

end Grammar

end TopologyAssist
