import TopologyAssist.Proofs.Evidence
import TopologyAssist.Proofs.Layout

/-!
What the text of a comment behind the cursor can change.

The rest of the cursor's line is read without its line break, so a comment in it is not closed and
stays in the lookahead. There it is read as a field like any other text: behind a comma it may
assign to the key that tells the kinds apart (`comment_is_evidence`). This is the only way in: a
comment that assigns nothing to such a key may be exchanged for any other one, and neither
completion nor hover tells the difference (`Engine.answers_of_silent`).
-/

namespace TopologyAssist

/-! ### What is read of the lookahead -/

namespace Grammar

variable {g : Grammar} {la la' : List Char}

/-- The kinds that the first assignment of the lookahead leaves. -/
def ahead (g : Grammar) (c : Container) : Option Assignment → Resolution
  | some a =>
    if a.value.isEmpty then .ambiguous (g.kindsIn c)
    else g.select (g.kindsIn c) (.complete a.value)
  | none => .ambiguous (g.kindsIn c)

/-- Two lookaheads leave the same kinds of every container. -/
def SameAhead (g : Grammar) (la la' : List Char) : Prop :=
  ∀ c, ∀ key ∈ g.selector? c,
    g.ahead c (assignments key.toList (clipBlock la)).head? =
      g.ahead c (assignments key.toList (clipBlock la')).head?

lemma resolve_of_sameAhead (h : g.SameAhead la la') (c : Container) (scope history : List Char) :
    g.resolve c ⟨scope, la, history⟩ = g.resolve c ⟨scope, la', history⟩ := by
  unfold resolve
  split
  · rfl
  · cases hkey : g.selector? c with
    | none => rfl
    | some key =>
      simp only
      cases (assignments key.toList (dropBlocks 0 scope)).getLast? with
      | some a => rfl
      | none => exact h c key hkey

/-- **A context looks at the lookahead for the kinds alone.** -/
theorem classify_of_sameAhead (h : g.SameAhead la la') (p : List Char) :
    g.classify p la = g.classify p la' := by
  have hctx : ∀ code tail place,
      g.contextAt code tail la place = g.contextAt code tail la' place := by
    intro code tail place
    cases place with
    | newElement => rfl
    | newBlock family => rfl
    | value block scope key fragment => simp only [contextAt, resolveAt, resolve_of_sameAhead h]
    | field block scope => simp only [contextAt, resolveAt, resolve_of_sameAhead h]
  simp only [classify, hctx]

end Grammar

/-! ### Assignments before a comment -/

lemma opensComment_of_comment (u z : List Char) : opensComment (u ++ '/' :: '/' :: z) = true := by
  induction u with
  | nil => rfl
  | cons c u ih => rw [List.cons_append, opensComment, ih, Bool.or_true]

section Mentions

variable {key : List Char} (hkey : opensComment key = false)
include hkey

/-- A key and its `=` do not reach into a comment. -/
lemma prefix_comment_iff {u : List Char} (z : List Char) :
    key ++ ['='] <+: u ++ '/' :: '/' :: z ↔ key ++ ['='] <+: u := by
  constructor
  · intro h
    rcases List.prefix_or_prefix_of_prefix h (List.prefix_append u _) with h' | ⟨w, hw⟩
    · exact h'
    · rw [← hw, List.prefix_append_right_inj] at h
      obtain ⟨t, ht⟩ := h
      match w with
      | [] => exact ⟨[], by rw [← hw]; simp⟩
      | [d] =>
        obtain ⟨rfl, -⟩ := List.cons.inj ht
        exact absurd (List.append_inj_right' hw rfl) (by decide)
      | d :: d' :: w =>
        obtain ⟨rfl, ht'⟩ := List.cons.inj ht
        obtain ⟨rfl, -⟩ := List.cons.inj ht'
        have hopen := opensComment_of_comment u w
        rw [hw, opensComment_snoc (by decide), hkey] at hopen
        cases hopen
  · exact fun h => h.trans (List.prefix_append u _)

private lemma mentions_comment (z : List Char) :
    ∀ (u : List Char) (skip : Nat) (last : Option Char), skip ≤ u.length →
      mentions (key ++ ['=']) skip last (u ++ '/' :: '/' :: z) =
        (mentions (key ++ ['=']) skip last u).map (fun w => w ++ '/' :: '/' :: z) ++
          mentions (key ++ ['=']) 0 (some '/') ('/' :: z) := by
  intro u
  induction u with
  | nil =>
    intro skip last hskip
    obtain rfl : skip = 0 := Nat.le_zero.mp hskip
    have hp : (key ++ ['=']).isPrefixOf ('/' :: '/' :: z) = false := by
      rw [Bool.eq_false_iff, Ne, List.isPrefixOf_iff_prefix]
      intro h
      have hnil := (prefix_comment_iff hkey (u := []) z).mp h
      simp at hnil
    rw [List.nil_append, mentions, List.map_nil, List.nil_append, mentions, hp,
      if_neg Bool.false_ne_true]
  | cons c u ih =>
    intro skip last hskip
    cases skip with
    | succ skip =>
      rw [List.cons_append, mentions, mentions]
      exact ih skip (some c) (Nat.le_of_succ_le_succ hskip)
    | zero =>
      have hiff : (key ++ ['=']).isPrefixOf (c :: (u ++ '/' :: '/' :: z)) =
          (key ++ ['=']).isPrefixOf (c :: u) := by
        rw [Bool.eq_iff_iff, List.isPrefixOf_iff_prefix, List.isPrefixOf_iff_prefix]
        exact prefix_comment_iff hkey (u := c :: u) z
      rw [List.cons_append, mentions, mentions, hiff]
      cases hp : (key ++ ['=']).isPrefixOf (c :: u) with
      | false => exact ih 0 (some c) (Nat.zero_le _)
      | true =>
        have hlen := (List.isPrefixOf_iff_prefix.mp hp).length_le
        have hdrop : (c :: (u ++ '/' :: '/' :: z)).drop (key ++ ['=']).length =
            (c :: u).drop (key ++ ['=']).length ++ '/' :: '/' :: z := by
          rw [← List.cons_append, List.drop_append_of_le_length hlen]
        rw [List.length_cons] at hlen
        rw [if_pos rfl, if_pos rfl, ih _ (some c) (by omega), hdrop]
        cases beforeKey last <;> simp

/-- **A comment is behind what stands before it**: the mentions there reach into it with their
values alone, and its own come after them. -/
lemma assignments_comment (u z : List Char) :
    assignments key (u ++ '/' :: '/' :: z) =
      (mentions (key ++ ['=']) 0 none u).map (fun w => .read (w ++ '/' :: '/' :: z)) ++
        assignments key ('/' :: '/' :: z) := by
  have hcomment := mentions_comment hkey z [] 0 none (Nat.zero_le _)
  rw [List.nil_append, mentions, List.map_nil, List.nil_append] at hcomment
  rw [assignments, assignments, hcomment, mentions_comment hkey z u 0 none (Nat.zero_le _),
    List.map_append, List.map_map]
  rfl

end Mentions

/-! ### Comments that assign nothing -/

namespace Grammar

variable {g : Grammar}

/-- No selecting key and no value that names a kind holds a comment. -/
structure CommentFree (g : Grammar) : Prop where
  keys : ∀ c, ∀ key ∈ g.selector? c, opensComment key.toList = false
  values : ∀ c, ∀ id ∈ g.kindsIn c, ∀ d ∈ g.discriminator? id, opensComment d.value.toList = false

/-- The comment with this text assigns nothing to a selecting key when it is read as a field. -/
def Silent (g : Grammar) (x : List Char) : Prop :=
  ∀ c, ∀ key ∈ g.selector? c,
    assignments key.toList (clipBlock (normalize ('/' :: '/' :: x))) = []

/-- A value that holds a comment names no kind. -/
lemma CommentFree.select_comment (hg : g.CommentFree) (c : Container) (w z : List Char) :
    g.select (g.kindsIn c) (.complete (w ++ '/' :: '/' :: z)) = .rejected := by
  have hnone : g.exactKind? (g.kindsIn c) (w ++ '/' :: '/' :: z) = none := by
    refine List.find?_eq_none.mpr fun id hid => ?_
    rw [Option.any_eq_true_iff_get]
    rintro ⟨hsome, hacc⟩
    have hfree := hg.values c id hid _ (Option.get_mem hsome)
    rw [Discriminator.accepts, beq_iff_eq] at hacc
    rw [hacc, opensComment_of_comment] at hfree
    cases hfree
  rw [select_complete, hnone]

/-- The kinds that a value before a comment leaves: the comment is behind the value, or it makes
the value one that no kind has. -/
lemma CommentFree.ahead_comment (hg : g.CommentFree) (c : Container) (w z z' : List Char) :
    g.ahead c (some (.read (w ++ '/' :: '/' :: z))) =
      g.ahead c (some (.read (w ++ '/' :: '/' :: z'))) := by
  have hslash : ∀ z : List Char, ('/' :: '/' :: z).takeWhile (fun c => !endsAssigned c) =
      '/' :: '/' :: z.takeWhile (fun c => !endsAssigned c) := fun _ => rfl
  simp only [ahead, Assignment.read, List.takeWhile_append, hslash]
  by_cases hlen : (w.takeWhile fun c => !endsAssigned c).length = w.length
  · have hne : ∀ v : List Char, (w ++ '/' :: v).isEmpty = false := by
      intro v
      cases w <;> rfl
    simp only [if_pos hlen, hne, Bool.false_eq_true, if_false, hg.select_comment]
  · simp only [if_neg hlen]

lemma clipBlock_comment (z : List Char) :
    ('/' :: '/' :: z).takeWhile isPlain = '/' :: '/' :: clipBlock z := rfl

/-- **Silent comments leave the same kinds**, whatever is before them. -/
lemma CommentFree.sameAhead (hg : g.CommentFree) {x y : List Char} (hx : '\n' ∉ x) (hy : '\n' ∉ y)
    (hsx : g.Silent x) (hsy : g.Silent y) (u : List Char) :
    g.SameAhead (u ++ '/' :: '/' :: dropBlanks x) (u ++ '/' :: '/' :: dropBlanks y) := by
  have hsilent : ∀ {x : List Char}, '\n' ∉ x → g.Silent x → ∀ c, ∀ key ∈ g.selector? c,
      assignments key.toList ('/' :: '/' :: clipBlock (dropBlanks x)) = [] := by
    intro x hx hs c key hkey
    have h := hs c key hkey
    rwa [normalize_of_not_mem (by simp [hx])] at h
  intro c key hkey
  have hfree := hg.keys c key hkey
  rw [clipBlock, clipBlock, List.takeWhile_append, List.takeWhile_append, clipBlock_comment,
    clipBlock_comment]
  split_ifs with hplain
  · rw [assignments_comment hfree, assignments_comment hfree, hsilent hx hsx c key hkey,
      hsilent hy hsy c key hkey, List.append_nil, List.append_nil, List.head?_map, List.head?_map]
    cases (mentions (key.toList ++ ['=']) 0 none u).head? with
    | none => rfl
    | some w => exact hg.ahead_comment c w _ _
  · rfl

end Grammar

/-! ### The cursor before a comment -/

/-- The text that begins with `head`, goes on with a comment and ends with `rest`. -/
def commented (head x rest : List Char) : List Char := head ++ '/' :: '/' :: (x ++ rest)

/-- The position is on the last line of `head`, and a `//` behind `head` begins the comment of that
line. -/
structure BeforeComment (p : Position) (head : List Char) : Prop where
  line : p.line = head.count '\n'
  column : p.column ≤ (lastLine head).length
  outside : Outside (lastLine head)

/-- The rest of a text behind a line: nothing, or a line break and more. -/
def EndsLine (rest : List Char) : Prop := rest = [] ∨ ∃ r, rest = '\n' :: r

lemma dropReturn_comment (x : List Char) :
    dropReturn ('/' :: '/' :: x) = '/' :: '/' :: dropReturn x := by
  cases x with
  | nil => rfl
  | cons c x => exact dropReturn_append (List.cons_ne_nil c x) ['/', '/']

/-- **The text of the comment is behind the cursor**, and nothing else depends on it. -/
lemma BeforeComment.locate {p : Position} {head : List Char} (hp : BeforeComment p head) :
    ∃ above before gap, '\n' ∉ gap ∧ ∀ x rest, '\n' ∉ x → EndsLine rest →
      Cursor.locate (commented head x rest) p =
        ⟨above, p.line, before, gap ++ '/' :: '/' :: dropReturn x⟩ := by
  obtain ⟨above, ha, hl, heq⟩ := exists_wholeLines head
  refine ⟨above, (lastLine head).take p.column, (lastLine head).drop p.column,
    fun h => hl (List.mem_of_mem_drop h), fun x rest hx hrest => ?_⟩
  have htext : commented head x rest =
      above ++ ((lastLine head ++ '/' :: '/' :: x) ++ rest) := by
    rw [commented]
    nth_rewrite 1 [heq]
    simp
  have hline : p.line = above.count '\n' := by
    rw [hp.line, heq, List.count_append, List.count_eq_zero.mpr hl, Nat.add_zero]
  have hmem : '\n' ∉ lastLine head ++ '/' :: '/' :: x := by simp [hl, hx]
  rw [htext, Cursor.locate_of_line ha hmem hrest hline,
    dropReturn_append (List.cons_ne_nil _ _), dropReturn_comment,
    List.take_append_of_le_length hp.column, List.drop_append_of_le_length hp.column]

/-- A line that ends with a comment, without its layout. -/
lemma normalize_gap {gap x : List Char} (hgap : '\n' ∉ gap) (hx : '\n' ∉ x) :
    normalize (gap ++ '/' :: '/' :: dropReturn x) =
      dropBlanks gap ++ '/' :: '/' :: dropBlanks x := by
  have hx' : '\n' ∉ dropReturn x := fun h => hx ((isPrefix_dropReturn x).subset h)
  have hslash : dropBlanks ('/' :: '/' :: dropReturn x) = '/' :: '/' :: dropBlanks (dropReturn x) :=
    rfl
  rw [normalize_of_not_mem (by simp [hgap, hx']), dropBlanks_append, hslash, dropBlanks_dropReturn]

/-! ### The token under the cursor -/

namespace Token

/-- What a token says: its key, and what is typed of it. -/
def said (t : Token) : List Char × List Char := (t.key, t.typed)

variable (above before gap y y' : List Char) (line : Nat)

lemma said_value? :
    (value? ⟨above, line, before, gap ++ '/' :: y⟩).map said =
      (value? ⟨above, line, before, gap ++ '/' :: y'⟩).map said := by
  have hempty : ((gap ++ '/' :: y).takeWhile fun ch => !isBlank ch && isValueChar ch).isEmpty =
      ((gap ++ '/' :: y').takeWhile fun ch => !isBlank ch && isValueChar ch).isEmpty := by
    cases gap with
    | nil => rfl
    | cons d gap =>
      rw [List.cons_append, List.cons_append, List.takeWhile_cons, List.takeWhile_cons]
      split_ifs <;> rfl
  simp only [value?, hempty]
  cases assignmentEnd.search? (normalize before) with
  | none => rfl
  | some found =>
    simp only [Option.bind_some]
    split_ifs <;> rfl

lemma said_key? :
    (key? ⟨above, line, before, gap ++ '/' :: y⟩).map said =
      (key? ⟨above, line, before, gap ++ '/' :: y'⟩).map said := by
  have htail : ∀ y, (gap ++ '/' :: y).takeWhile isKeyChar = gap.takeWhile isKeyChar := by
    intro y
    rw [List.takeWhile_append, List.takeWhile_cons_of_neg (by decide), List.append_nil]
    split_ifs with hlen
    · rw [(List.takeWhile_prefix _).eq_of_length hlen]
    · rfl
  simp only [key?, htail]
  rfl

/-- **The token is the one before the comment**, up to its range. -/
lemma said_at? :
    (at? ⟨above, line, before, gap ++ '/' :: y⟩).map said =
      (at? ⟨above, line, before, gap ++ '/' :: y'⟩).map said := by
  rw [at?, at?, Option.map_or, Option.map_or, said_value? above before gap y y',
    said_key? above before gap y y']

end Token

/-! ### Both answers -/

/-- What a card says, without the range. -/
def HoverCard.facts (h : HoverCard) : String × String × String × String :=
  (h.key, h.title, h.unit, h.description)

/-- What an explanation says depends on the key and its context alone. -/
lemma Hover.facts_explain?_of_key {g : Grammar} {o : Options} {c c' : Cursor} {t t' : Token}
    (hkey : t.key = t'.key) (hctx : context? g c t = context? g c' t') :
    (explain? g o c t).map HoverCard.facts = (explain? g o c' t').map HoverCard.facts := by
  simp only [explain?, hkey, hctx]
  cases g.described? (String.ofList t'.key) with
  | some found => rfl
  | none =>
    cases context? g c' t' with
    | none => rfl
    | some ctx =>
      simp only [Option.bind_some]
      cases g.resolveField? ctx (String.ofList t'.key) <;> rfl

lemma Hover.facts_explain? {g : Grammar} {o : Options} {c c' : Cursor} {t t' : Token}
    (hsaid : t.said = t'.said) (hctx : context? g c t = context? g c' t') :
    (explain? g o c t).map HoverCard.facts = (explain? g o c' t').map HoverCard.facts :=
  facts_explain?_of_key (Prod.mk.inj hsaid).1 hctx

namespace Engine

variable (e : Engine) {p : Position} {head x y rest : List Char}

/-- **A comment that assigns nothing to a selecting key is not seen.** Completion and hover before
it are the same whatever else it says. -/
theorem answers_of_silent (t : Trigger) (hg : e.grammar.CommentFree) (hp : BeforeComment p head)
    (hx : '\n' ∉ x) (hy : '\n' ∉ y) (hrest : EndsLine rest) (hsx : e.grammar.Silent x)
    (hsy : e.grammar.Silent y) :
    e.complete (commented head x rest) p t = e.complete (commented head y rest) p t ∧
      (e.hover (commented head x rest) p).map HoverCard.facts =
        (e.hover (commented head y rest) p).map HoverCard.facts := by
  obtain ⟨above, before, gap, hgap, hloc⟩ := hp.locate
  have hahead := hg.sameAhead hx hy hsx hsy
  constructor
  · have hclass := fun before => Grammar.classify_of_sameAhead (hahead (dropBlanks gap)) before
    simp only [complete, hloc x rest hx hrest, hloc y rest hy hrest, normalize_gap hgap hx,
      normalize_gap hgap hy, hclass]
    rfl
  · have hctx : ∀ t t' : Token, t.said = t'.said →
        Hover.context? e.grammar ⟨above, p.line, before, gap ++ '/' :: '/' :: dropReturn x⟩ t =
          Hover.context? e.grammar ⟨above, p.line, before, gap ++ '/' :: '/' :: dropReturn y⟩ t' := by
      intro t t' h
      obtain ⟨-, htyped⟩ := Prod.mk.inj h
      simp only [Hover.context?, htyped, normalize_gap hgap hx, normalize_gap hgap hy,
        ← List.append_assoc]
      exact Grammar.classify_of_sameAhead (hahead (t'.typed ++ dropBlanks gap)) _
    have hsaid := Token.said_at? above before gap ('/' :: dropReturn x) ('/' :: dropReturn y) p.line
    simp only [hover, Hover.card?, hloc x rest hx hrest, hloc y rest hy hrest, Cursor.inComment]
    split_ifs
    · rfl
    · revert hsaid
      cases Token.at? ⟨above, p.line, before, gap ++ '/' :: '/' :: dropReturn x⟩ <;>
        cases Token.at? ⟨above, p.line, before, gap ++ '/' :: '/' :: dropReturn y⟩ <;>
        intro hsaid
      · rfl
      · cases hsaid
      · cases hsaid
      · have h := Option.some.inj hsaid
        exact Hover.facts_explain? h (hctx _ _ h)

/-- A key that stands right behind `//` begins no field, so this comment is as good as none. -/
theorem answers_of_silent_learning :
    Grammar.standard.Silent " fnc=flat".toList ∧
      (⟨Grammar.standard, {}⟩ : Engine).complete
          (commented "LRN=[(lid=l1, ".toList " fnc=flat".toList "\n)]".toList) ⟨0, 13⟩ .invoked =
        (⟨Grammar.standard, {}⟩ : Engine).complete
          (commented "LRN=[(lid=l1, ".toList [] "\n)]".toList) ⟨0, 13⟩ .invoked := by
  have hfree : Grammar.standard.CommentFree := by
    constructor <;> rintro (c | c) <;> cases c <;> decide
  have hsilent : Grammar.standard.Silent " fnc=flat".toList := by
    rintro (c | c) <;> cases c <;> decide
  have hnil : Grammar.standard.Silent [] := by
    rintro (c | c) <;> cases c <;> decide
  exact ⟨hsilent, (answers_of_silent ⟨Grammar.standard, {}⟩ .invoked hfree
    ⟨by decide, by decide, by decide, by decide⟩ (by decide) (by decide)
    (Or.inr ⟨")]".toList, by decide⟩) hsilent hnil).1⟩

/-- **A comment can be evidence.** Behind a comma it settles the kind, although the texts differ in
the comment alone. -/
theorem comment_is_evidence :
    BeforeComment ⟨0, 13⟩ "LRN=[(lid=l1, ".toList ∧
      (⟨Grammar.standard, {}⟩ : Engine).complete
          (commented "LRN=[(lid=l1, ".toList " see,fnc=flat".toList "\n)]".toList) ⟨0, 13⟩
          .invoked ≠
        (⟨Grammar.standard, {}⟩ : Engine).complete
          (commented "LRN=[(lid=l1, ".toList " see".toList "\n)]".toList) ⟨0, 13⟩ .invoked := by
  refine ⟨⟨by decide, by decide, by decide, by decide⟩, ?_⟩
  decide +kernel

end Engine

end TopologyAssist
