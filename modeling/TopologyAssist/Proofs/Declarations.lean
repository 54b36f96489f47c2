import TopologyAssist.Proofs.Rendering

/-!
What an earlier part of a section declares.

A selecting field without a value takes the value declared most recently for the same container.
The declarations are found by a walk through the text of the section, which sees no tree. It meets
exactly the earlier blocks of the container, in order, each with the last value that the block
itself gives to the key (`Draft.lastDeclared?_history`). A walk is cut into segments with
`Passes`: what a segment yields, with what the text before it may end in and what it ends in then.
-/

namespace TopologyAssist

open Reader

/-! ### Earlier blocks of a draft -/

/-- The last value that fields give to a key; empty ones do not count. -/
def lastValue? (key : List Char) (pairs : List Pair) : Option (List Char) :=
  (pairs.filter fun p => p.key = key ∧ p.value ≠ []).getLast?.map Pair.value

/-- The field, if the entry is one. -/
def Entry.pair? {code : SectionCode} : Entry code → Option Pair
  | .pair p => some p
  | .block _ _ _ => none

/-- The fields of the block, if the entry is the block of a slot. -/
def Entry.blockOf? {code : SectionCode} (slot : FamilyCode) : Entry code → Option (List Pair)
  | .pair _ => none
  | .block _ slot' pairs => if slot' = slot then some pairs else none

/-- The fields of an element, without those of blocks in it. -/
def ClosedElement.pairs {code : SectionCode} (e : ClosedElement code) : List Pair :=
  e.entries.filterMap Entry.pair?

/-- The earlier blocks of the container that the innermost open block belongs to, in the order of
the text. -/
def Draft.earlierBlocks (d : Draft) : List (List Pair) :=
  match d.openEnd with
  | .element _ _ => d.elements.map ClosedElement.pairs
  | .block _ slot _ _ =>
    (d.elements.flatMap ClosedElement.entries ++ d.entries).filterMap (Entry.blockOf? slot)

lemma lastValue?_cons (key : List Char) (p : Pair) (pairs : List Pair) :
    lastValue? key (p :: pairs) =
      (lastValue? key pairs).or (if p.key = key ∧ p.value ≠ [] then some p.value else none) := by
  unfold lastValue?
  by_cases h : p.key = key ∧ p.value ≠ []
  · rw [List.filter_cons_of_pos (by simpa using h), List.getLast?_cons, if_pos h]
    cases (pairs.filter fun p => p.key = key ∧ p.value ≠ []).getLast? <;> rfl
  · rw [List.filter_cons_of_neg (by simpa using h), if_neg h, Option.or_none]

/-! ### The value that a block declares -/

namespace Reader

lemma bind_apply {α β : Type} (r : Reader α) (f : α → Reader β) (cs : List Char) :
    (r >>= f) cs = (r cs).flatMap fun q => f q.1 q.2 := rfl

lemma word_append (w t : List Char) : word w (w ++ t) = [((), t)] := by
  induction w with
  | nil => rfl
  | cons c w ih => rw [List.cons_append, word, if_pos rfl, ih]

lemma word_eq_nil {w cs : List Char} (h : ¬ w <+: cs) : word w cs = [] := by
  rw [List.eq_nil_iff_forall_not_mem]
  rintro ⟨⟨⟩, t⟩ hm
  obtain ⟨u, rfl, rfl⟩ := (reads_word w cs t).mp hm
  exact h (List.prefix_append u t)

lemma runStops_eq (p : Char → Bool) (cs : List Char) :
    ∀ known, runStops p cs known = runStops p cs [] ++ known := by
  induction cs with
  | nil => exact fun known => rfl
  | cons c cs ih =>
    intro known
    rw [runStops, runStops]
    split_ifs
    · rw [ih, ih [c :: cs], List.append_assoc, List.singleton_append]
    · rfl

/-- A run goes as far as its class does. -/
lemma head?_run {p : Char → Bool} {v t : List Char} (hv : ∀ c ∈ v, p c = true)
    (ht : ∀ c ∈ t.head?, p c = false) : (run p (v ++ t)).head? = some ((), t) := by
  have hstops : ∀ known, (runStops p (v ++ t) known).head? = some t := by
    induction v with
    | nil =>
      intro known
      cases t with
      | nil => rfl
      | cons c t => rw [List.nil_append, runStops, ht c rfl]; rfl
    | cons c v ih =>
      intro known
      rw [List.cons_append, runStops, if_pos (hv c (by simp))]
      exact ih (fun d hd => hv d (List.mem_cons_of_mem _ hd)) _
  rw [run, List.head?_map, hstops]
  rfl

end Reader

/-- The places behind the commas of a block, the last first. -/
private lemma commaStops_cons (c : Char) (cs : List Char) :
    (flatBody >>= fun _ => word [',']) (c :: cs) =
      if c = ',' then (flatBody >>= fun _ => word [',']) cs ++ [((), cs)]
      else if isPlain c then (flatBody >>= fun _ => word [',']) cs else [] := by
  have hstops (cs : List Char) : (flatBody >>= fun _ => word [',']) cs =
      (runStops isPlain cs []).flatMap fun t => word [','] t := by
    rw [bind_apply, flatBody, run, List.flatMap_map]
  have hword : word [','] (c :: cs) = if c = ',' then [((), cs)] else [] := by
    simp only [word, eq_comm (a := ',')]
  rw [hstops, hstops, runStops]
  by_cases hcomma : c = ','
  · rw [if_pos (by rw [hcomma]; decide), runStops_eq, List.flatMap_append, List.flatMap_singleton,
      hword, if_pos hcomma, if_pos hcomma]
  · rw [if_neg hcomma]
    split_ifs
    · rw [runStops_eq, List.flatMap_append, List.flatMap_singleton, hword, if_neg hcomma,
        List.append_nil]
    · rw [List.flatMap_singleton, hword, if_neg hcomma]

/-- The comma that ends the earlier fields is none of a text without one, which comes first. -/
private lemma commaStops_append {u : List Char} (hu : ∀ c ∈ u, isPlain c = true) (hcomma : ',' ∉ u)
    (v : List Char) :
    (flatBody >>= fun _ => word [',']) (u ++ v) = (flatBody >>= fun _ => word [',']) v := by
  induction u with
  | nil => rfl
  | cons c u ih =>
    have hc : c ≠ ',' := fun hc => hcomma (by simp [hc])
    rw [List.cons_append, commaStops_cons, if_neg hc, if_pos (hu c (by simp))]
    exact ih (fun d hd => hu d (List.mem_cons_of_mem _ hd))
      fun hd => hcomma (List.mem_cons_of_mem _ hd)

/-- Later fields come first: those of what is behind the first comma, then none. -/
private lemma earlierFields_comma {u : List Char} (hu : ∀ c ∈ u, isPlain c = true)
    (hcomma : ',' ∉ u) (v : List Char) :
    earlierFields false (u ++ ',' :: v) = earlierFields false v ++ [((), u ++ ',' :: v)] := by
  show (flatBody >>= fun _ => word [',']) (u ++ ',' :: v) ++ [((), u ++ ',' :: v)] =
    ((flatBody >>= fun _ => word [',']) v ++ [((), v)]) ++ [((), u ++ ',' :: v)]
  rw [commaStops_append hu hcomma, commaStops_cons, if_pos rfl]

/-- Before the end of a block without a comma there are no earlier fields. -/
private lemma earlierFields_close {u : List Char} (hu : ∀ c ∈ u, isPlain c = true)
    (hcomma : ',' ∉ u) (v : List Char) :
    earlierFields false (u ++ ')' :: v) = [((), u ++ ')' :: v)] := by
  show (flatBody >>= fun _ => word [',']) (u ++ ')' :: v) ++ [((), u ++ ')' :: v)] = _
  rw [commaStops_append hu hcomma, commaStops_cons, if_neg (by decide), if_neg (by decide)]
  rfl

/-- A key, `=` and its value, which is read. -/
def givenValue (key : List Char) : Reader (List Char) := do
  word (key ++ ['='])
  let start ← here
  run1 isValueChar
  let stop ← here
  pure (textBefore start stop)

lemma declaredValue_apply (key cs : List Char) :
    declaredValue false key cs =
      (earlierFields false cs).flatMap fun q => givenValue key q.2 := rfl

lemma givenValue_eq_nil {key cs : List Char} (h : ¬ key ++ ['='] <+: cs) :
    givenValue key cs = [] := by
  rw [givenValue, bind_apply, word_eq_nil h]
  rfl

lemma givenValue_append (key cs : List Char) :
    givenValue key (key ++ '=' :: cs) =
      (run1 isValueChar cs).map fun q => (textBefore cs q.2, q.2) := by
  rw [show key ++ '=' :: cs = (key ++ ['=']) ++ cs by simp, givenValue, bind_apply, word_append,
    List.flatMap_singleton, bind_apply, here, List.flatMap_singleton, bind_apply,
    List.map_eq_flatMap]
  rfl

/-- The value that a field gives to a key. -/
lemma head?_givenValue {key : List Char} (hkey : IsKey key) (p : Pair) {d : Char}
    (hd : isValueChar d = false) (v : List Char) :
    (givenValue key (p.render ++ d :: v)).head? =
      if p.key = key ∧ p.value ≠ [] then some (p.value, d :: v) else none := by
  have hrender : p.render ++ d :: v = p.key ++ '=' :: (p.value ++ d :: v) := by simp [Pair.render]
  rw [hrender]
  by_cases hname : p.key = key
  · rw [hname, givenValue_append, List.head?_map]
    cases hvalue : p.value with
    | nil =>
      rw [List.nil_append, run1, bind_apply, one, if_neg (by simp [hd])]
      simp
    | cons c w =>
      have hc : ∀ x ∈ c :: w, isValueChar x = true := hvalue ▸ p.isValue
      have hrun := head?_run (v := w) (t := d :: v) (fun x hx => hc x (List.mem_cons_of_mem _ hx))
        (by simpa using hd)
      rw [List.cons_append, run1, bind_apply, one, if_pos (hc c (by simp)),
        List.flatMap_singleton, hrun, Option.map_some, ← List.cons_append, textBefore_append]
      simp
  · have hnot : ¬ key ++ ['='] <+: p.key ++ '=' :: (p.value ++ d :: v) := fun h =>
      hname ((assignment_prefix_iff hkey p.isKey).mp h)
    rw [givenValue_eq_nil hnot, if_neg fun h => hname h.1]
    rfl

/-- **A block declares its last value.** Behind it the block goes on with the fields that come
after that value. -/
theorem head?_declaredValue {key : List Char} (hkey : IsKey key) (v : List Char) :
    ∀ pairs : List Pair, ∃ w, w <:+ joined (pairs.map Pair.render) ∧
      (declaredValue false key (joined (pairs.map Pair.render) ++ ')' :: v)).head? =
        (lastValue? key pairs).map fun value => (value, w ++ ')' :: v) := by
  intro pairs
  induction pairs with
  | nil =>
    have hnot : ¬ key ++ ['='] <+: ')' :: v := by
      obtain ⟨c, name, rfl⟩ := List.exists_cons_of_ne_nil hkey.1
      rintro ⟨t, ht⟩
      obtain ⟨rfl, -⟩ := List.cons.inj ht
      exact absurd (hkey.2 ')' (by simp)) (by decide)
    refine ⟨[], List.nil_suffix, ?_⟩
    have hclose := earlierFields_close (u := []) (by simp) (by simp) v
    rw [List.nil_append] at hclose
    show (declaredValue false key (')' :: v)).head? = none
    rw [declaredValue_apply, hclose, List.flatMap_singleton, givenValue_eq_nil hnot]
    rfl
  | cons p pairs ih =>
    obtain ⟨hplain, hcomma⟩ := p.plain
    rw [lastValue?_cons]
    cases pairs with
    | nil =>
      refine ⟨[], List.nil_suffix, ?_⟩
      rw [List.map_cons, List.map_nil, joined_singleton, declaredValue_apply,
        earlierFields_close hplain hcomma, List.flatMap_singleton,
        head?_givenValue hkey p (by decide)]
      show _ = Option.map _ (Option.or none _)
      rw [Option.none_or]
      split_ifs <;> rfl
    | cons q pairs =>
      obtain ⟨w, hw, hhead⟩ := ih
      have htext : joined ((p :: q :: pairs).map Pair.render) =
          p.render ++ ',' :: joined ((q :: pairs).map Pair.render) := joined_cons_cons _ _ _
      rw [htext, List.append_assoc, List.cons_append, declaredValue_apply,
        earlierFields_comma hplain hcomma, List.flatMap_append,
        ← declaredValue_apply, List.head?_append, hhead, List.flatMap_singleton,
        head?_givenValue hkey p (by decide)]
      -- a later field with a value comes first
      cases hlast : lastValue? key (q :: pairs) with
      | some value =>
        exact ⟨w, hw.trans ((List.suffix_cons _ _).trans (List.suffix_append _ _)), rfl⟩
      | none =>
        refine ⟨',' :: joined ((q :: pairs).map Pair.render), List.suffix_append _ _, ?_⟩
        simp only [Option.map_none, Option.none_or]
        split_ifs <;> rfl

lemma declaredValue_nil {key : List Char} : declaredValue false key [] = [] := by
  have hnot : ¬ key ++ ['='] <+: [] := by simp
  rw [declaredValue_apply, show earlierFields false [] = [((), [])] from rfl,
    List.flatMap_singleton, givenValue_eq_nil hnot]

lemma suffix_of_mem_declaredValue {key cs a t : List Char}
    (h : (a, t) ∈ declaredValue false key cs) : t <:+ cs := by
  obtain ⟨e, w, -, rfl, h₁⟩ := (reads_earlierFields false).mem_bind.mp h
  obtain ⟨name, w₁, -, rfl, h₂⟩ := (reads_word _).mem_bind.mp h₁
  obtain ⟨start, w₂, hstart, h₃⟩ := Reader.mem_bind.mp h₂
  obtain ⟨rfl, rfl⟩ := mem_here.mp hstart
  obtain ⟨v, w₃, -, rfl, h₄⟩ := (reads_run1 isValueChar).mem_bind.mp h₃
  obtain ⟨stop, w₄, hstop, h₅⟩ := Reader.mem_bind.mp h₄
  obtain ⟨rfl, rfl⟩ := mem_here.mp hstop
  obtain ⟨-, rfl⟩ := mem_pure.mp h₅
  exact ⟨e ++ name ++ v, by simp⟩

/-- No parenthesis opens among the fields of a block. -/
lemma not_mem_joined (pairs : List Pair) : '(' ∉ joined (pairs.map Pair.render) := by
  have hplain := Nested.zero_iff.mp (nested_joined (nested_pairs pairs))
  exact fun hm => absurd (hplain '(' hm) (by decide)

/-! ### Where declarations begin -/

/-- A declaration begins with a text that satisfies `A` and a parenthesis; what the block behind
them declares is read. No such text ends with another one. -/
structure DeclaresBehind (r : Reader (List Char)) (key : List Char) (A : List Char → Prop) :
    Prop where
  read : ∀ a cs, A a → r (a ++ '(' :: cs) = declaredValue false key cs
  only : ∀ cs, r cs ≠ [] → ∃ a t, A a ∧ cs = a ++ '(' :: t
  before : ∀ a, A a → a ≠ [] ∧ '(' ∉ a
  apart : ∀ a b, A a → A b → a <:+ b → a = b

namespace DeclaresBehind

variable {r : Reader (List Char)} {key : List Char} {A : List Char → Prop}

lemma advances (h : DeclaresBehind r key A) : r.Advances := by
  intro cs a t hm
  obtain ⟨b, u, hb, rfl⟩ := h.only cs (List.ne_nil_of_mem hm)
  rw [h.read b u hb] at hm
  have hlen := (suffix_of_mem_declaredValue hm).length_le
  rw [List.length_append, List.length_cons]
  omega

/-- No reading begins in a text before a parenthesis, unless the text ends as declarations
begin. -/
lemma silentOn (h : DeclaresBehind r key A) {x : List Char} (hx : '(' ∉ x) {cs : List Char}
    (hA : ∀ a, A a → a <:+ x → r (a ++ '(' :: cs) = []) : r.SilentOn x ('(' :: cs) := by
  intro w hw _
  by_contra hne
  obtain ⟨a, t, ha, heq⟩ := h.only _ hne
  obtain ⟨rfl, -⟩ := split_unique (fun hm => hx (hw.subset hm)) (h.before a ha).2 heq
  exact hne (hA w ha hw)

/-- The walk passes a parenthesis. -/
lemma collect_open (h : DeclaresBehind r key A) (cs : List Char) :
    r.collect ('(' :: cs) = r.collect cs := by
  refine collect_cons_of_nil ?_
  by_contra hne
  obtain ⟨a, t, ha, heq⟩ := h.only _ hne
  obtain ⟨c, a, rfl⟩ := List.exists_cons_of_ne_nil (h.before a ha).1
  obtain ⟨rfl, -⟩ := List.cons.inj heq
  exact (h.before _ ha).2 (by simp)

/-- A parenthesis behind anything else opens no declaration. -/
lemma collect_other (h : DeclaresBehind r key A) {x : List Char} (hx : '(' ∉ x)
    (hA : ∀ a, A a → ¬ a <:+ x) (cs : List Char) :
    r.collect (x ++ '(' :: cs) = r.collect cs := by
  rw [collect_of_silent (h.silentOn hx fun a ha hax => absurd hax (hA a ha)), h.collect_open]

/-- A declaration is read and the walk goes on behind its value. -/
lemma collect_declared (h : DeclaresBehind r key A) {x a : List Char} (hx : '(' ∉ x) (ha : A a)
    (cs : List Char) :
    r.collect (x ++ (a ++ '(' :: cs)) =
      match (declaredValue false key cs).head? with
      | some (v, t) => v :: r.collect t
      | none => r.collect cs := by
  have hbefore := (h.before a ha).2
  have hsilent : r.SilentOn x (a ++ '(' :: cs) := by
    intro w hw hwne
    by_contra hne
    obtain ⟨b, t, hb, heq⟩ := h.only _ hne
    rw [← List.append_assoc] at heq
    have hwa : '(' ∉ w ++ a := fun hm =>
      (List.mem_append.mp hm).elim (fun hm => hx (hw.subset hm)) hbefore
    obtain ⟨rfl, -⟩ := split_unique hwa (h.before b hb).2 heq
    -- it would end with the text that the declaration begins with
    have := h.apart a (w ++ a) ha hb (List.suffix_append w a)
    exact hwne (List.self_eq_append_left.mp this)
  rw [collect_of_silent hsilent]
  have hread := h.read a cs ha
  cases hhead : (declaredValue false key cs).head? with
  | some q => exact collect_of_head? h.advances (by rw [hread, hhead])
  | none =>
    rw [List.head?_eq_none_iff] at hhead
    have hnone : ∀ b, A b → b <:+ a → r (b ++ '(' :: cs) = [] := by
      intro b hb hba
      rw [h.apart b a hb ha hba, hread, hhead]
    rw [collect_of_silent (h.silentOn hbefore hnone), h.collect_open]

/-- Behind a parenthesis at the end of the text nothing is declared. -/
lemma collect_end (h : DeclaresBehind r key A) {x a : List Char} (hx : '(' ∉ x) (ha : A a) :
    r.collect (x ++ (a ++ ['('])) = [] := by
  rw [h.collect_declared hx ha, declaredValue_nil]
  rfl

/-- A block of the container yields its last value. -/
lemma exists_collect_block (h : DeclaresBehind r key A) (hkey : IsKey key) {x a : List Char}
    (hx : '(' ∉ x) (ha : A a) (pairs : List Pair) (cs : List Char) :
    ∃ w, '(' ∉ w ∧
      r.collect (x ++ (a ++ '(' :: (joined (pairs.map Pair.render) ++ ')' :: cs))) =
        (lastValue? key pairs).toList ++ r.collect (w ++ ')' :: cs) := by
  have hjoined := not_mem_joined pairs
  obtain ⟨w, hw, hhead⟩ := head?_declaredValue hkey cs pairs
  rw [h.collect_declared hx ha, hhead]
  cases lastValue? key pairs with
  | some v => exact ⟨w, fun hm => hjoined (hw.subset hm), rfl⟩
  | none => exact ⟨_, hjoined, rfl⟩

end DeclaresBehind

/-- The delimiters before an element. -/
def BeforeElement (a : List Char) : Prop := ∃ d, a = [d] ∧ (d = '[' ∨ d = ',' ∨ d = ')')

lemma declaresBehind_element (key : List Char) :
    DeclaresBehind (elementDeclaration false key) key BeforeElement where
  read := by
    rintro _ cs ⟨d, rfl, hd⟩
    have hone : one (fun c => c == '[' || c == ',' || c == ')') (d :: '(' :: cs) =
        [((), '(' :: cs)] := by
      rcases hd with rfl | rfl | rfl <;> rfl
    have hword : word ['('] ('(' :: cs) = [((), cs)] := word_append ['('] cs
    rw [elementDeclaration, List.singleton_append, bind_apply, hone, List.flatMap_singleton,
      bind_apply, hword, List.flatMap_singleton]
  only := by
    intro cs hne
    obtain ⟨⟨v, t⟩, hm⟩ := List.exists_mem_of_ne_nil _ hne
    obtain ⟨_, w, ⟨d, hd, rfl⟩, rfl, h₁⟩ := (reads_one _).mem_bind.mp hm
    obtain ⟨_, w₁, rfl, rfl, -⟩ := (reads_word _).mem_bind.mp h₁
    simp only [Bool.or_eq_true, beq_iff_eq, or_assoc] at hd
    exact ⟨[d], w₁, ⟨d, rfl, hd⟩, rfl⟩
  before := by
    rintro _ ⟨d, rfl, rfl | rfl | rfl⟩ <;> decide
  apart := by
    rintro _ _ ⟨d, rfl, -⟩ ⟨d', rfl, -⟩ h
    exact h.eq_of_length rfl

lemma declaresBehind_block (f : FamilyCode) (key : List Char) :
    DeclaresBehind (blockDeclaration f key) key (· = f.text.toList ++ ['=']) where
  read := by
    rintro _ cs rfl
    rw [show (f.text.toList ++ ['=']) ++ '(' :: cs = (f.text.toList ++ ['=', '(']) ++ cs by simp,
      blockDeclaration, bind_apply, word_append, List.flatMap_singleton]
  only := by
    intro cs hne
    obtain ⟨⟨v, t⟩, hm⟩ := List.exists_mem_of_ne_nil _ hne
    obtain ⟨_, w, rfl, rfl, -⟩ := (reads_word _).mem_bind.mp hm
    exact ⟨_, w, rfl, by simp⟩
  before := by
    rintro _ rfl
    refine ⟨by simp, fun hm => ?_⟩
    have hplain := (plain_of_assignment f.isKey_text isValue_nil).1
    exact absurd (hplain '(' hm) (by decide)
  apart := by
    rintro _ _ rfl rfl _
    rfl

/-! ### What a segment yields -/

/-- Going over `s`, the walk yields `vs`: a text that satisfies `P` before it may be taken for one
that satisfies `Q`. -/
def Passes (r : Reader (List Char)) (P : List Char → Prop) (s : List Char)
    (vs : List (List Char)) (Q : List Char → Prop) : Prop :=
  ∀ x, P x → ∀ cs, ∃ x', Q x' ∧ r.collect (x ++ (s ++ cs)) = vs ++ r.collect (x' ++ cs)

/-- No parenthesis opens in the text. -/
def Unopened (x : List Char) : Prop := '(' ∉ x

/-- The text ends where an element may begin. -/
def Delimited (x : List Char) : Prop := ∃ y a, '(' ∉ y ∧ BeforeElement a ∧ x = y ++ a

namespace Passes

variable {r : Reader (List Char)} {P Q R : List Char → Prop} {s t : List Char}
  {vs ws : List (List Char)}

lemma append (h : Passes r P s vs Q) (h' : Passes r Q t ws R) :
    Passes r P (s ++ t) (vs ++ ws) R := by
  intro x hx cs
  obtain ⟨y, hy, hs⟩ := h x hx (t ++ cs)
  obtain ⟨z, hz, ht⟩ := h' y hy cs
  exact ⟨z, hz, by rw [List.append_assoc, hs, ht, List.append_assoc]⟩

/-- What each segment of a row keeps, the row keeps. -/
lemma row {α : Type} {f : α → List Char} {g : α → List (List Char)}
    (h : ∀ a, Passes r P (f a) (g a) P) :
    ∀ l : List α, Passes r P (l.flatMap f) (l.flatMap g) P := by
  intro l
  induction l with
  | nil => exact fun x hx cs => ⟨x, hx, rfl⟩
  | cons a l ih =>
    rw [List.flatMap_cons, List.flatMap_cons]
    exact (h a).append ih

/-- A text without a parenthesis yields nothing. -/
lemma text (hs : '(' ∉ s) : Passes r Unopened s [] Unopened := by
  intro x hx cs
  refine ⟨x ++ s, fun hm => (List.mem_append.mp hm).elim hx hs, ?_⟩
  rw [List.append_assoc, List.nil_append]

/-- Behind a closed element another one may begin. -/
lemma close (comma : Bool) : Passes r Unopened (')' :: commaIf comma) [] Delimited := by
  intro x hx cs
  cases comma with
  | false => exact ⟨x ++ [')'], ⟨x, [')'], hx, ⟨')', rfl, by simp⟩, rfl⟩, by simp [commaIf]⟩
  | true =>
    have hclose : '(' ∉ x ++ [')'] := by simpa [Unopened] using hx
    exact ⟨x ++ [')'] ++ [','], ⟨_, [','], hclose, ⟨',', rfl, by simp⟩, rfl⟩, by simp [commaIf]⟩

/-- Commas between segments yield nothing. -/
lemma joined {α : Type} {f : α → List Char} {g : α → List (List Char)}
    (h : ∀ a, Passes r Unopened (f a) (g a) Unopened) :
    ∀ l : List α, Passes r Unopened (joined (l.map f)) (l.flatMap g) Unopened := by
  intro l
  induction l with
  | nil => exact fun x hx cs => ⟨x, hx, rfl⟩
  | cons a l ih =>
    rw [List.flatMap_cons]
    cases l with
    | nil =>
      rw [List.map_cons, List.map_nil, joined_singleton, List.flatMap_nil, List.append_nil]
      exact h a
    | cons b l =>
      have hcomma : Passes r Unopened [','] [] Unopened := text (by decide)
      have htext : TopologyAssist.joined ((a :: b :: l).map f) =
          f a ++ ([','] ++ TopologyAssist.joined ((b :: l).map f)) := joined_cons_cons _ _ _
      rw [htext]
      exact (h a).append (hcomma.append ih)

end Passes

/-! ### Elements that declare their kind -/

section Elements

variable {code : SectionCode} (hcode : code ≠ .neurons)
include hcode

/-- Elements other than neurons are their fields. -/
lemma render_entries (entries : List (Entry code)) :
    entries.map Entry.render = (entries.filterMap Entry.pair?).map Pair.render := by
  induction entries with
  | nil => rfl
  | cons e entries ih =>
    cases e with
    | pair p => rw [List.map_cons, ih]; rfl
    | block h => exact absurd h hcode

lemma passes_element {key : List Char} (hkey : IsKey key) (e : ClosedElement code) :
    Passes (elementDeclaration false key) Delimited e.render (lastValue? key e.pairs).toList
      Delimited := by
  rintro _ ⟨y, a, hy, ha, rfl⟩ cs
  obtain ⟨w, hw, hcollect⟩ := (declaresBehind_element key).exists_collect_block hkey hy ha e.pairs
    (commaIf e.comma ++ cs)
  obtain ⟨x, hx, hclose⟩ := Passes.close (r := elementDeclaration false key) e.comma w hw cs
  refine ⟨x, hx, ?_⟩
  rw [ClosedElement.render, render_entries hcode, ← ClosedElement.pairs]
  simp only [List.cons_append, List.append_assoc, List.nil_append] at hcollect hclose ⊢
  rw [hcollect, hclose]

end Elements

/-! ### Function blocks that declare their kind -/

section Blocks

variable {f : FamilyCode} {key : List Char} (hkey : IsKey key) {code : SectionCode}

lemma FamilyCode.not_suffix_of_ne {f f' : FamilyCode} (h : f' ≠ f) (x : List Char) :
    ¬ f.text.toList ++ ['='] <:+ x ++ (f'.text.toList ++ ['=']) := by
  have hlen (f : FamilyCode) : (f.text.toList ++ ['=']).length = 4 := by
    cases f <;> decide
  intro hs
  have heq := (List.suffix_of_suffix_length_le hs (List.suffix_append x _)
    (by rw [hlen, hlen])).eq_of_length (by rw [hlen, hlen])
  exact h (FamilyCode.text_injective (List.append_cancel_right heq).symm)

include hkey in
lemma passes_entry (e : Entry code) :
    Passes (blockDeclaration f key) Unopened e.render
      ((e.blockOf? f).bind (lastValue? key)).toList Unopened := by
  cases e with
  | pair p => exact Passes.text fun hm => absurd (p.plain.1 '(' hm) (by decide)
  | block h slot pairs =>
    intro x hx cs
    have hdecl := declaresBehind_block f key
    have htext : x ++ ((Entry.block h slot pairs).render ++ cs) =
        x ++ ((slot.text.toList ++ ['=']) ++
          '(' :: (joined (pairs.map Pair.render) ++ ')' :: cs)) := by
      simp [Entry.render]
    have hjoined := not_mem_joined pairs
    rw [htext]
    by_cases hslot : slot = f
    · obtain ⟨w, hw, hcollect⟩ := hdecl.exists_collect_block hkey hx rfl pairs cs
      refine ⟨w ++ [')'], by simpa [Unopened] using hw, ?_⟩
      rw [hslot, hcollect, Entry.blockOf?, if_pos rfl, Option.bind_some, List.append_assoc,
        List.singleton_append]
    · have hother : ∀ a, a = f.text.toList ++ ['='] → ¬ a <:+ x ++ (slot.text.toList ++ ['=']) := by
        rintro _ rfl
        exact FamilyCode.not_suffix_of_ne hslot x
      have hbefore : '(' ∉ x ++ (slot.text.toList ++ ['=']) := fun hm =>
        (List.mem_append.mp hm).elim hx ((declaresBehind_block slot key).before _ rfl).2
      refine ⟨joined (pairs.map Pair.render) ++ [')'], by simpa [Unopened] using hjoined, ?_⟩
      rw [← List.append_assoc, hdecl.collect_other hbefore hother, Entry.blockOf?, if_neg hslot]
      simp

/-- The parenthesis of an element opens no block. -/
lemma passes_open : Passes (blockDeclaration f key) Delimited ['('] [] Unopened := by
  rintro _ ⟨y, _, hy, ⟨d, rfl, hd⟩, rfl⟩ cs
  have hdecl := declaresBehind_block f key
  have hbefore : '(' ∉ y ++ [d] := by
    rcases hd with rfl | rfl | rfl <;> simpa using hy
  have hother : ∀ a, a = f.text.toList ++ ['='] → ¬ a <:+ y ++ [d] := by
    rintro _ rfl ⟨t, ht⟩
    rw [← List.append_assoc] at ht
    obtain rfl : '=' = d := by simpa using (List.append_inj' ht rfl).2
    exact absurd hd (by decide)
  exact ⟨[], List.not_mem_nil, hdecl.collect_other hbefore hother cs⟩

include hkey in
lemma passes_entries (e : ClosedElement code) :
    Passes (blockDeclaration f key) Delimited e.render
      (e.entries.flatMap fun e => ((e.blockOf? f).bind (lastValue? key)).toList) Delimited := by
  have h := passes_open.append ((Passes.joined (passes_entry hkey) e.entries).append
    (Passes.close (r := blockDeclaration f key) e.comma))
  rw [List.nil_append, List.append_nil] at h
  exact h

end Blocks

/-! ### The history of a draft -/

namespace Grammar

lemma standard_selector_isKey (c : Container) :
    ∀ key ∈ standard.selector? c, IsKey key.toList := by
  rcases c with code | code <;> cases code <;> decide

/-- In the built-in tables the elements that have a selecting field hold no blocks. -/
lemma standard_selector_flat (code : SectionCode) :
    standard.selector? (.ofSection code) ≠ none →
      code ≠ .neurons ∧ standard.isSlotted code = false := by
  cases code <;> decide

end Grammar

namespace Draft

open Grammar

lemma delimited_opening (code : SectionCode) : Delimited (code.text.toList ++ ['=', '[']) := by
  refine ⟨code.text.toList ++ ['='], ['['], ?_, ⟨'[', rfl, by simp⟩, by simp⟩
  cases code <;> decide

variable (d : Draft)

lemma collect_elements (hcode : d.code ≠ .neurons) {key : List Char} (hkey : IsKey key) :
    (elementDeclaration false key).collect d.beforeElement =
      (d.elements.map ClosedElement.pairs).filterMap (lastValue? key) := by
  obtain ⟨_, ⟨y, a, hy, ha, rfl⟩, hrow⟩ :=
    Passes.row (passes_element hcode hkey) d.elements _ (delimited_opening d.code) ['(']
  have hend := (declaresBehind_element key).collect_end hy ha
  have htext : d.beforeElement = (d.code.text.toList ++ ['=', '[']) ++
      (d.elements.flatMap ClosedElement.render ++ ['(']) := by
    simp [beforeElement]
  rw [htext, hrow, List.append_assoc, hend, List.append_nil, List.filterMap_map,
    List.filterMap_eq_flatMap_toList]
  rfl

lemma collect_blocks (slot : FamilyCode) {key : List Char} (hkey : IsKey key) :
    (blockDeclaration slot key).collect
        (d.beforeElement ++ (d.fields ++ (slot.text.toList ++ ['=', '(']))) =
      ((d.elements.flatMap ClosedElement.entries ++ d.entries).filterMap
        (Entry.blockOf? slot)).filterMap (lastValue? key) := by
  have hended (e : Entry d.code) := (passes_entry (f := slot) hkey e).append
    (Passes.text (r := blockDeclaration slot key) (s := [',']) (by decide))
  have hwalk := (Passes.row (passes_entries (f := slot) hkey) d.elements).append
    (passes_open.append (Passes.row hended d.entries))
  obtain ⟨x, hx, hcollect⟩ := hwalk _ (delimited_opening d.code) (slot.text.toList ++ ['=', '('])
  have hend := (declaresBehind_block slot key).collect_end hx rfl
  have htext : d.beforeElement ++ (d.fields ++ (slot.text.toList ++ ['=', '('])) =
      (d.code.text.toList ++ ['=', '[']) ++ (d.elements.flatMap ClosedElement.render ++
        (['('] ++ d.entries.flatMap fun e => e.render ++ [',']) ++
          (slot.text.toList ++ ['=', '('])) := by
    simp [beforeElement, fields, ended, List.flatMap_map]
  rw [List.append_assoc] at hend
  rw [htext, hcollect, show ['=', '('] = ['='] ++ ['('] from rfl, hend, List.append_nil,
    List.filterMap_filterMap, List.filterMap_eq_flatMap_toList, List.flatMap_append,
    List.flatMap_assoc]
  simp

/-- **An empty selecting field takes the value declared most recently for its container.** The text
that is searched for it ends where the innermost open block begins. The value found there is the
last one that the last earlier block of the same container gives to the key, of those blocks that
give it one; blocks of other containers and of other depth have no part in it. -/
theorem lastDeclared?_history :
    textBefore (standard.sectionTail d.render) d.scope = d.history ∧
      standard.lastDeclared? d.container d.history =
        (standard.selector? d.container).bind fun key =>
          (d.earlierBlocks.filterMap (lastValue? key.toList)).getLast? := by
  constructor
  · rw [d.openAt_render.2, textBefore_append]
  · unfold lastDeclared? declaration?
    cases hselector : standard.selector? d.container with
    | none => rfl
    | some key =>
      have hkey := standard_selector_isKey d.container key hselector
      rw [Option.map_some, Option.bind_some, Option.bind_some]
      unfold container history earlierBlocks at *
      cases hopen : d.openEnd with
      | element ending h =>
        simp only [hopen] at hselector ⊢
        obtain ⟨hcode, hslotted⟩ := standard_selector_flat d.code (by rw [hselector]; simp)
        rw [hslotted, d.collect_elements hcode hkey]
      | block h slot pairs ending =>
        simp only
        rw [d.collect_blocks slot hkey]

-- the last value of the block, not the empty one behind it and not that of another family
example :
    standard.lastDeclared? (.ofFamily .weightDecay)
      "NRN=[(WDF=(fnc=a,fnc=b,fnc=),SRP=(fnc=c)),(nm=d,WDF=(".toList = some ['b'] := by
  decide +kernel

end Draft

end TopologyAssist
