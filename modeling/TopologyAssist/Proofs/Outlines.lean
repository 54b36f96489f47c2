import TopologyAssist.Proofs.TabStops
import TopologyAssist.Proofs.Tables

/-!
Templates, by what they are asked for.

* `Grammar.slotKind?` is the kind that fills a slot, by the tables: the first of its family, unless
  another kind has its name.
* `Template.Request.outline` is what a request asks for: text and fields, without numbers.
* `Template.Request.readsAs_write`: what is written for a request reads as its outline, with the
  fields numbered one by one.

A number is carried on at three places: from field to field of a block, from the fields of an
element through its blocks, and from one request to the next. All three are a list of texts that
read as `Snippet.numberedRows`, so each is one induction and they fit together.
-/

namespace TopologyAssist

/-! ### Slots -/

namespace Grammar

/-- The kinds of a family, over all tables of its code, in their order. -/
def familyKinds (g : Grammar) (code : FamilyCode) : List ElementKind :=
  (g.families.filter fun f => f.code == code).flatMap FamilySpec.kinds

/-- The kind that fills a slot: the last one, over all tables, that has the name of the first of its
family. -/
def slotKind? (g : Grammar) (code : FamilyCode) : Option ElementKind :=
  (g.familyKinds code).head?.bind fun first =>
    (g.kinds.map Prod.snd).reverse.find? fun k => k.id == first.id

/-- **The default kind of a family, by the tables.** -/
theorem defaultKind?_ofFamily (g : Grammar) (code : FamilyCode) :
    g.defaultKind? (.ofFamily code) = g.slotKind? code := by
  have hlisted : g.listed (.ofFamily code) = g.familyKinds code := rfl
  rw [defaultKind?, kindsIn, filter_kinds_eq_listed, hlisted, slotKind?, List.map_map,
    List.head?_map, Option.bind_map]
  congr 1
  funext first
  rw [Function.comp_apply, Function.comp_apply, kind?, ← List.map_reverse, List.find?_map]
  rfl

/-- **The first kind of a family fills the slot** where no other kind has its name. -/
theorem slotKind?_eq_head? {g : Grammar} {code : FamilyCode} {first : ElementKind}
    (hfirst : (g.familyKinds code).head? = some first)
    (h : ∀ p ∈ g.kinds, p.2.id = first.id → p.2 = first) : g.slotKind? code = some first := by
  rw [slotKind?, hfirst, Option.bind_some]
  have hmem : (Container.ofFamily code, first) ∈ g.kinds :=
    mem_kinds_iff_listed.mpr (List.mem_of_head? hfirst)
  cases hfind : (g.kinds.map Prod.snd).reverse.find? fun k => k.id == first.id with
  | none =>
    have hnone := List.find?_eq_none.mp hfind first
      (List.mem_reverse.mpr (List.mem_map_of_mem hmem))
    exact absurd (beq_self_eq_true _) hnone
  | some k =>
    obtain ⟨p, hp, rfl⟩ :=
      List.mem_map.mp (List.mem_reverse.mp (List.mem_of_find?_eq_some hfind))
    rw [h p hp (by simpa using List.find?_some hfind)]

end Grammar

/-! ### Outlines -/

namespace Template

open Snippet

/-- A field as it is to be read: its name and an equals sign, then its tab stop. -/
def fieldOutline (f : FieldSpec) : List (Piece FieldSpec) := literals (f.name ++ "=") ++ [.stop f]

/-- The block of a slot with the fields of a kind in it. -/
def blockOutline (slot : FamilyCode) (k : ElementKind) : List (Piece FieldSpec) :=
  literals (slot.text ++ "=") ++
    .literal '(' :: (joinRows (k.fields.map fieldOutline) ++ [.literal ')'])

/-- The blocks of slots that have a kind to fill them. -/
def blockOutlines (fill : FamilyCode → Option ElementKind) (slots : List FamilyCode) :
    List (List (Piece FieldSpec)) :=
  slots.filterMap fun slot => (fill slot).map (blockOutline slot)

/-- The fields in the blocks of slots. -/
def blockFields (fill : FamilyCode → Option ElementKind) (slots : List FamilyCode) :
    List FieldSpec :=
  slots.flatMap fun slot => (fill slot).toList.flatMap ElementKind.fields

namespace Request

/-- What a request asks for, where `fill` has the kind for each slot: fields with commas between
them, and behind an element's own fields its blocks. -/
def outline (fill : FamilyCode → Option ElementKind) : Request → List (Piece FieldSpec)
  | fields fs => joinRows (fs.map fieldOutline)
  | element k => joinRows (k.fields.map fieldOutline ++ blockOutlines fill k.slots)

/-- The fields that a request asks for, in their order. -/
def emitted (fill : FamilyCode → Option ElementKind) : Request → List FieldSpec
  | fields fs => fs
  | element k => k.fields ++ blockFields fill k.slots

end Request

lemma blockFields_cons (fill : FamilyCode → Option ElementKind) (slot : FamilyCode)
    (slots : List FamilyCode) :
    blockFields fill (slot :: slots) =
      (fill slot).toList.flatMap ElementKind.fields ++ blockFields fill slots :=
  List.flatMap_cons

lemma mem_blockFields {fill : FamilyCode → Option ElementKind} {slots : List FamilyCode}
    {slot : FamilyCode} {k : ElementKind} {f : FieldSpec} (hslot : slot ∈ slots)
    (hk : fill slot = some k) (hf : f ∈ k.fields) : f ∈ blockFields fill slots :=
  List.mem_flatMap.mpr ⟨slot, hslot, by simpa [hk] using hf⟩

@[simp] lemma stops_fieldOutline (f : FieldSpec) : stops (fieldOutline f) = [f] := by
  simp [fieldOutline]

@[simp] lemma stops_fieldOutlines (fs : List FieldSpec) :
    stops (fs.map fieldOutline).flatten = fs := by
  induction fs with
  | nil => rfl
  | cons f fs ih => simp [ih]

@[simp] lemma stops_blockOutline (slot : FamilyCode) (k : ElementKind) :
    stops (blockOutline slot k) = k.fields := by
  simp [blockOutline]

@[simp] lemma stops_blockOutlines (fill : FamilyCode → Option ElementKind)
    (slots : List FamilyCode) :
    stops (blockOutlines fill slots).flatten = blockFields fill slots := by
  induction slots with
  | nil => rfl
  | cons slot slots ih =>
    rw [blockOutlines] at ih
    cases h : fill slot with
    | none => simp [blockOutlines, blockFields_cons, h, ih]
    | some k => simp [blockOutlines, blockFields_cons, h, ih]

/-- **One tab stop for each field.** -/
lemma Request.stops_outline (fill : FamilyCode → Option ElementKind) (r : Request) :
    stops (r.outline fill) = r.emitted fill := by
  cases r <;> simp [outline, emitted]

lemma stops_outlines (fill : FamilyCode → Option ElementKind) (requests : List Request) :
    stops (requests.map (Request.outline fill)).flatten =
      requests.flatMap (Request.emitted fill) := by
  induction requests with
  | nil => rfl
  | cons r requests ih => simp [r.stops_outline, ih]

end Template

/-! ### Outlines are separated -/

lemma IsKey.not_mem_assignment {name : String} (h : IsKey name.toList) {c : Char}
    (hc : isKeyChar c = false) (hne : c ≠ '=') : c ∉ (name ++ "=").toList := by
  rw [String.toList_append, List.mem_append, not_or]
  refine ⟨fun hmem => ?_, by simpa using hne⟩
  rw [h.2 c hmem] at hc
  cases hc

namespace Template

open Snippet

/-- The text of an assignment holds no separator. -/
lemma plain_assignment {name : String} (h : IsKey name.toList) :
    ∀ c ∈ (name ++ "=").toList.map some, c ≠ some ',' ∧ c ≠ some '(' ∧ c ≠ some ')' := by
  intro c hc
  obtain ⟨d, hd, rfl⟩ := List.mem_map.mp hc
  have hother : ∀ e, isKeyChar e = false → e ≠ '=' → some d ≠ some e := fun e he hne heq =>
    h.not_mem_assignment he hne (Option.some.inj heq ▸ hd)
  exact ⟨hother ',' (by decide) (by decide), hother '(' (by decide) (by decide),
    hother ')' (by decide) (by decide)⟩

lemma isPart_fieldOutline {f : FieldSpec} (hf : IsKey f.name.toList) : IsPart (fieldOutline f) := by
  refine isChain_of_plain (by simp [fieldOutline]) ?_ _ _
  intro c hc
  rw [fieldOutline, List.map_append, map_literal?_literals, List.mem_append] at hc
  rcases hc with hc | hc
  · exact plain_assignment hf c hc
  · obtain rfl : c = none := by simpa [Piece.literal?] using hc
    decide

lemma isPart_fieldOutlines {fs : List FieldSpec} (hfs : ∀ f ∈ fs, IsKey f.name.toList) :
    ∀ row ∈ fs.map fieldOutline, IsPart row := by
  intro row hrow
  obtain ⟨f, hf, rfl⟩ := List.mem_map.mp hrow
  exact isPart_fieldOutline (hfs f hf)

lemma isPart_blockOutline (slot : FamilyCode) {k : ElementKind}
    (hk : ∀ f ∈ k.fields, IsKey f.name.toList) : IsPart (blockOutline slot k) := by
  let name : List (Option Char) := (slot.text ++ "=").toList.map some
  let inner := (joinRows (k.fields.map fieldOutline)).map Piece.literal?
  have hname : (some ',' :: (name ++ [some '('])).IsChain Meets :=
    isChain_of_plain (by simp) (plain_assignment slot.isKey_text) _ _
  have hinner : (some '(' :: (inner ++ [some ')'])).IsChain Meets :=
    separated_joinRows (isPart_fieldOutlines hk)
  have hblock : ((some '(' :: inner) ++ some ')' :: [some ',']).IsChain Meets :=
    List.isChain_split.mpr ⟨hinner, by decide⟩
  have hall : ((some ',' :: name) ++ some '(' :: (inner ++ [some ')', some ','])).IsChain Meets :=
    List.isChain_split.mpr ⟨hname, hblock⟩
  simpa [IsPart, blockOutline, Piece.literal?, name, inner] using hall

/-- **An outline has no empty part.** -/
theorem Request.separated_outline {fill : FamilyCode → Option ElementKind} {r : Request}
    (hr : ∀ f ∈ r.emitted fill, IsKey f.name.toList) : Separated (r.outline fill) := by
  cases r with
  | fields fs => exact separated_joinRows (isPart_fieldOutlines hr)
  | element k =>
    obtain ⟨hown, hblocks⟩ := List.forall_mem_append.mp hr
    refine separated_joinRows fun row hrow => ?_
    rcases List.mem_append.mp hrow with hrow | hrow
    · exact isPart_fieldOutlines hown row hrow
    · obtain ⟨slot, hslot, hfill⟩ := List.mem_filterMap.mp hrow
      obtain ⟨k', hk', rfl⟩ := Option.map_eq_some_iff.mp hfill
      exact isPart_blockOutline slot fun f hf => hblocks f (mem_blockFields hslot hk' hf)

/-! ### What is written -/

section Written

variable (useDefaults : Bool) (next : Nat)

lemma readsAs_assignment {name : String} (h : IsKey name.toList) :
    ReadsAs (name ++ "=") (literals (name ++ "=")) := by
  refine readsAs_literals fun c hc => ⟨?_, ?_⟩
  · rintro rfl
    exact h.not_mem_assignment (by decide) (by decide) hc
  · rintro rfl
    exact h.not_mem_assignment (by decide) (by decide) hc

lemma readsAs_field {f : FieldSpec} (hf : IsKey f.name.toList) :
    ReadsAs (field useDefaults next f)
      (numbered (placeholder · useDefaults) next (fieldOutline f)) := by
  rw [fieldOutline, numbered_append, numbered_literals, stops_literals]
  exact (readsAs_assignment hf).append (readsAs_tabStop _ _)

/-- The fields of a block, one after the other. -/
lemma readsAs_fieldParts {fs : List FieldSpec} (hfs : ∀ f ∈ fs, IsKey f.name.toList) :
    List.Forall₂ ReadsAs (fieldParts useDefaults next fs)
      (numberedRows (placeholder · useDefaults) next (fs.map fieldOutline)) := by
  induction fs generalizing next with
  | nil => exact .nil
  | cons f fs ih =>
    obtain ⟨hf, hfs⟩ := List.forall_mem_cons.mp hfs
    rw [List.map_cons, numberedRows, stops_fieldOutline]
    exact .cons (readsAs_field useDefaults next hf) (ih (next + 1) hfs)

lemma readsAs_fields {fs : List FieldSpec} (hfs : ∀ f ∈ fs, IsKey f.name.toList) :
    ReadsAs (fields useDefaults next fs).1
      (numbered (placeholder · useDefaults) next (joinRows (fs.map fieldOutline))) := by
  rw [← joinRows_numberedRows]
  exact ReadsAs.intercalate (readsAs_fieldParts useDefaults next hfs)

lemma readsAs_block (slot : FamilyCode) {k : ElementKind}
    (hk : ∀ f ∈ k.fields, IsKey f.name.toList) :
    ReadsAs (slot.text ++ "=(" ++ (fields useDefaults next k.fields).1 ++ ")")
      (numbered (placeholder · useDefaults) next (blockOutline slot k)) := by
  have hopen : ReadsAs "(" [.literal '('] := readsAs_literals (by simp)
  have hclose : ReadsAs ")" [.literal ')'] := readsAs_literals (by simp)
  have hall := (((readsAs_assignment slot.isKey_text).append hopen).append
    (readsAs_fields useDefaults next hk)).append hclose
  have htext : slot.text ++ "=" ++ "(" = slot.text ++ "=(" := String.append_assoc ..
  rw [htext] at hall
  simpa [blockOutline, numbered_append, numbered_literals, numbered] using hall

variable (g : Grammar) (slots : List FamilyCode)

/-- The blocks of an element, one after the other. -/
lemma readsAs_blocks (hslots : ∀ f ∈ blockFields g.slotKind? slots, IsKey f.name.toList) :
    List.Forall₂ ReadsAs (blocks g useDefaults next slots).1
      (numberedRows (placeholder · useDefaults) next (blockOutlines g.slotKind? slots)) := by
  induction slots generalizing next with
  | nil => exact .nil
  | cons slot slots ih =>
    rw [blockFields_cons] at hslots
    obtain ⟨hslot, hslots⟩ := List.forall_mem_append.mp hslots
    cases hk : g.slotKind? slot with
    | none =>
      simp only [blocks, g.defaultKind?_ofFamily, hk, blockOutlines, List.filterMap_cons,
        Option.map_none]
      exact ih next hslots
    | some k =>
      simp only [blocks, g.defaultKind?_ofFamily, hk, blockOutlines, List.filterMap_cons,
        Option.map_some, numberedRows, stops_blockOutline]
      have hfields : ∀ f ∈ k.fields, IsKey f.name.toList := by simpa [hk] using hslot
      exact .cons (readsAs_block useDefaults next slot hfields) (ih _ hslots)

lemma blocks_snd :
    (blocks g useDefaults next slots).2 = next + (blockFields g.slotKind? slots).length := by
  induction slots generalizing next with
  | nil => rfl
  | cons slot slots ih =>
    cases hk : g.slotKind? slot with
    | none => simpa [blocks, g.defaultKind?_ofFamily, hk, blockFields_cons] using ih next
    | some k =>
      simp only [blocks, g.defaultKind?_ofFamily, hk, ih]
      simp [fields, hk, blockFields_cons, Nat.add_assoc]

/-- Parts that are joined in two steps are joined. -/
lemma intercalate_intercalate_cons {parts : List String} (hne : parts ≠ []) (more : List String) :
    ",".intercalate (",".intercalate parts :: more) = ",".intercalate (parts ++ more) := by
  by_cases hmore : more = []
  · simp [hmore]
  · rw [String.intercalate_cons_of_ne_nil hmore]
    induction parts with
    | nil => exact absurd rfl hne
    | cons part parts ih =>
      cases parts with
      | nil => simp [String.intercalate_cons_of_ne_nil hmore]
      | cons part' parts =>
        rw [String.intercalate_cons_cons, List.cons_append, List.cons_append,
          String.intercalate_cons_cons, ← List.cons_append, ← ih (by simp)]
        simp only [String.append_assoc]

lemma isEmpty_fields {fs : List FieldSpec} (hne : fs ≠ []) :
    (fields useDefaults next fs).1.isEmpty = false := by
  cases fs with
  | nil => exact absurd rfl hne
  | cons f fs =>
    cases fs with
    | nil => simp [fields, fieldParts, field]
    | cons f' fs => simp [fields, fieldParts, field, String.intercalate_cons_cons]

lemma isEmpty_of_mem_blocks :
    ∀ part ∈ (blocks g useDefaults next slots).1, part.isEmpty = false := by
  induction slots generalizing next with
  | nil => simp [blocks]
  | cons slot slots ih =>
    cases hk : g.defaultKind? (.ofFamily slot) with
    | none =>
      simp only [blocks, hk]
      exact ih next
    | some k =>
      simp only [blocks, hk, List.forall_mem_cons]
      exact ⟨by simp, ih _⟩

/-- An element is its fields and its blocks, all joined alike. -/
lemma element_fst (k : ElementKind) :
    (element g useDefaults next k).1 = ",".intercalate (fieldParts useDefaults next k.fields ++
      (blocks g useDefaults (next + k.fields.length) k.slots).1) := by
  have hblocks : ((blocks g useDefaults (next + k.fields.length) k.slots).1.filter
      fun part => !part.isEmpty) = (blocks g useDefaults (next + k.fields.length) k.slots).1 :=
    List.filter_eq_self.mpr fun part hpart => by simp [isEmpty_of_mem_blocks _ _ _ _ part hpart]
  -- fields and blocks are joined apart, and no fields would leave an empty part
  change ",".intercalate (((fields useDefaults next k.fields).1 ::
    (blocks g useDefaults (next + k.fields.length) k.slots).1).filter fun part => !part.isEmpty) = _
  by_cases hfields : k.fields = []
  · have hown : (fields useDefaults next k.fields).1 = "" := by simp [hfields, fields, fieldParts]
    rw [hown, List.filter_cons_of_neg (by decide), hblocks]
    simp [hfields, fieldParts]
  · have hparts : fieldParts useDefaults next k.fields ≠ [] := by
      obtain ⟨f, fs, hcons⟩ := List.exists_cons_of_ne_nil hfields
      simp [hcons, fieldParts]
    rw [List.filter_cons_of_pos (by simp [isEmpty_fields useDefaults next hfields]), hblocks]
    exact intercalate_intercalate_cons hparts _

/-- **What is written for a request reads as its outline**, numbered from `next` on. -/
theorem Request.readsAs_write {r : Request}
    (hr : ∀ f ∈ r.emitted g.slotKind?, IsKey f.name.toList) :
    ReadsAs (r.write g useDefaults next).1
      (numbered (placeholder · useDefaults) next (r.outline g.slotKind?)) := by
  cases r with
  | fields fs => exact readsAs_fields useDefaults next hr
  | element k =>
    obtain ⟨hown, hinner⟩ := List.forall_mem_append.mp hr
    have hparts := List.rel_append (readsAs_fieldParts useDefaults next hown)
      (readsAs_blocks useDefaults (next + k.fields.length) g k.slots hinner)
    rw [write, element_fst, outline, ← joinRows_numberedRows, numberedRows_append,
      stops_fieldOutlines]
    exact ReadsAs.intercalate hparts

/-- The next number is that many further on. -/
lemma Request.write_snd (r : Request) :
    (r.write g useDefaults next).2 = next + (stops (r.outline g.slotKind?)).length := by
  cases r with
  | fields fs => simp [write, Template.fields, outline]
  | element k =>
    change (blocks g useDefaults (next + k.fields.length) k.slots).2 = _
    rw [blocks_snd]
    simp [outline, Nat.add_assoc]

variable (requests : List Request)

/-- **Several requests go on with the numbers** of those before them. -/
theorem readsAs_writeAll
    (hkeys : ∀ r ∈ requests, ∀ f ∈ r.emitted g.slotKind?, IsKey f.name.toList) :
    List.Forall₂ ReadsAs (writeAll g useDefaults next requests).1
      (numberedRows (placeholder · useDefaults) next
        (requests.map (Request.outline g.slotKind?))) := by
  induction requests generalizing next with
  | nil => exact .nil
  | cons r requests ih =>
    obtain ⟨hr, hrequests⟩ := List.forall_mem_cons.mp hkeys
    rw [List.map_cons, numberedRows, ← Request.write_snd useDefaults next g r]
    exact .cons (r.readsAs_write useDefaults next g hr) (ih _ hrequests)

lemma writeAll_snd :
    (writeAll g useDefaults next requests).2 =
      next + (stops (requests.map (Request.outline g.slotKind?)).flatten).length := by
  induction requests generalizing next with
  | nil => rfl
  | cons r requests ih =>
    change (writeAll g useDefaults (r.write g useDefaults next).2 requests).2 = _
    rw [ih, Request.write_snd]
    simp [Nat.add_assoc]

end Written

/-- **Templates read back.** Whatever is asked for, each text that is written can be read, and reads
as the outline of its request with placeholders in their places. The tab stops of all texts are one
for each field, numbered one by one, and the number behind them is the next one. No text has an
empty part. A slot is left out if its family has no kind, and holds the fields of the first kind of
its family if no other kind has the name of that kind. -/
theorem writeAll_reads_back (g : Grammar) (useDefaults : Bool) (start : Nat)
    (requests : List Request)
    (hkeys : ∀ r ∈ requests, ∀ f ∈ r.emitted g.slotKind?, IsKey f.name.toList) :
    (∃ read : List (List (Piece (Nat × String))),
      (writeAll g useDefaults start requests).1.map pieces? = read.map some ∧
      read.map (List.map (Piece.map Prod.snd)) = requests.map (fun r =>
        (r.outline g.slotKind?).map (Piece.map (placeholder · useDefaults))) ∧
      stops read.flatten =
        ((requests.flatMap (Request.emitted g.slotKind?)).zipIdx start).map
          (fun x => (x.2, placeholder x.1 useDefaults)) ∧
      (writeAll g useDefaults start requests).2 = start + (stops read.flatten).length ∧
      ∀ ps ∈ read, Separated ps) ∧
    ∀ code, (g.familyKinds code = [] → g.slotKind? code = none) ∧
      ∀ first, (g.familyKinds code).head? = some first →
        (∀ p ∈ g.kinds, p.2.id = first.id → p.2 = first) → g.slotKind? code = some first := by
  refine ⟨⟨numberedRows (placeholder · useDefaults) start
    (requests.map (Request.outline g.slotKind?)), ?_, ?_, ?_, ?_, ?_⟩, fun code => ⟨?_, ?_⟩⟩
  · exact map_pieces? (readsAs_writeAll useDefaults start g requests hkeys)
  · rw [map_snd_numberedRows, List.map_map]
    rfl
  · rw [flatten_numberedRows, stops_numbered, stops_outlines]
  · rw [writeAll_snd, flatten_numberedRows, stops_numbered, List.length_map, List.length_zipIdx]
  · refine separated_numberedRows (fun row hrow => ?_) _ _
    obtain ⟨r, hr, rfl⟩ := List.mem_map.mp hrow
    exact Request.separated_outline (hkeys r hr)
  · intro hnil
    rw [Grammar.slotKind?, hnil]
    rfl
  · exact fun first hfirst honly => Grammar.slotKind?_eq_head? hfirst honly

/-- An element whose own field has a default full of special characters, with a slot for a kind
without fields and a slot without a kind, and then two fields more. -/
theorem writeAll_reads_back_special :
    let special : FieldSpec := ⟨"thr", "", "", some "$\x7b1:,\x7d", some "\\", []⟩
    let own : FieldSpec := ⟨"nid", "own, id", "", none, none, []⟩
    let k : ElementKind := ⟨⟨.ofSection .neurons, "neuron"⟩, "", "", none, [special],
      [.location, .weightLimit]⟩
    let cl : ElementKind := ⟨⟨.ofFamily .location, "cl"⟩, "", "", none, [], []⟩
    let g : Grammar := ⟨[], [⟨.location, "", "", [cl]⟩]⟩
    writeAll g true 7 [.element k, .fields [own, special]] =
      (["thr=$\x7b7:\\$\x7b1:,\\\x7d\\\\\x7d,LOC=()",
        "nid=$\x7b8:own, id\x7d,thr=$\x7b9:\\$\x7b1:,\\\x7d\\\\\x7d"], 10) ∧
    (∃ read : List (List (Piece (Nat × String))),
      (writeAll g true 7 [.element k, .fields [own, special]]).1.map pieces? = read.map some ∧
      stops read.flatten = [(7, "$\x7b1:,\x7d\\"), (8, "own, id"), (9, "$\x7b1:,\x7d\\")] ∧
      ∀ ps ∈ read, Separated ps) ∧
    g.slotKind? .location = some cl ∧ g.slotKind? .weightLimit = none := by
  intro special own k cl g
  obtain ⟨⟨read, hread, -, hstops, -, hsep⟩, hslots⟩ :=
    writeAll_reads_back g true 7 [.element k, .fields [own, special]] (by decide +kernel)
  exact ⟨by decide +kernel, ⟨read, hread, hstops.trans (by decide +kernel), hsep⟩,
    (hslots .location).2 cl rfl (by decide), (hslots .weightLimit).1 rfl⟩

/-- **Of two kinds of one name the last fills the slot**, although it is not the first kind of its
family: be it a later kind of the family or, in `across`, one of another family. -/
theorem writeAll_repeated :
    let kind (name : String) : ElementKind :=
      ⟨⟨.ofFamily .location, "cl"⟩, "", "", none, [⟨name, "", "", none, none, []⟩], []⟩
    let k : ElementKind := ⟨⟨.ofSection .neurons, "neuron"⟩, "", "", none, [], [.location]⟩
    let within : Grammar := ⟨[], [⟨.location, "", "", [kind "rad", kind "ecc"]⟩]⟩
    let across : Grammar :=
      ⟨[], [⟨.location, "", "", [kind "rad"]⟩, ⟨.releaseProbability, "", "", [kind "ecc"]⟩]⟩
    ∀ g ∈ [within, across],
      (g.familyKinds .location).head? = some (kind "rad") ∧
      (writeAll g false 1 [.element k]).1 = ["LOC=(ecc=$\x7b1:\x7d)"] ∧
      (writeAll g false 1 [.element k]).1.map
          (fun s => (pieces? s).map (List.map (Piece.map Prod.snd))) ≠
        [some (((Request.element k).outline fun code => (g.familyKinds code).head?).map
          (Piece.map (placeholder · false)))] := by
  decide +kernel

end Template

end TopologyAssist
