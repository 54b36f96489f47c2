import TopologyAssist.Grammar.Standard
import TopologyAssist.Proofs.Lines
import TopologyAssist.Session

/-!
What the answer to a request depends on.

* of a text, nothing below the cursor's line (`Engine.answers_append_break`);
* of a session, the last call that tells anything about the document (`Session.answers_latest`).
  `Call.told?` is what one call tells, `latestText?` what a row of calls leaves, and the documents
  of a session follow it call by call (`Session.document?_after`, `Session.document?_run`).
-/

namespace TopologyAssist

/-! ### Below the cursor's line -/

namespace Engine

/-- **Text below the cursor's line is never read**: whatever it is, and also if there is none,
completion and hover answer the same. -/
theorem answers_append_break (e : Engine) (t : Trigger) (u v w : List Char) {p : Position}
    (hp : p.line ≤ u.count '\n') :
    (e.complete (u ++ '\n' :: v) p t = e.complete (u ++ '\n' :: w) p t ∧
      e.complete (u ++ '\n' :: w) p t = e.complete u p t) ∧
    e.hover (u ++ '\n' :: v) p = e.hover (u ++ '\n' :: w) p ∧
      e.hover (u ++ '\n' :: w) p = e.hover u p := by
  have hv := Cursor.locate_append_break hp v
  have hw := Cursor.locate_append_break hp w
  refine ⟨⟨?_, ?_⟩, ?_, ?_⟩
  · rw [complete, complete, hv, hw]
  · rw [complete, complete, hw]
  · rw [hover, hover, hv, hw]
  · rw [hover, hover, hw]

/-- The line ends with a carriage return, and the column is behind its end; a system of coordinates
on the next line settles nothing. -/
theorem answers_append_break_location :
    let e : Engine := ⟨Grammar.standard, {}⟩
    let u := "NRN=[(nid=a,\n  LOC=(hgt\r".toList
    (1 ≤ u.count '\n') ∧
      (e.complete (u ++ '\n' :: "=4um,cst=sp,".toList) ⟨1, 90⟩ .invoked).map CompletionItem.label =
        ["cst=ct", "cst=cl", "cst=sp"] ∧
      (e.hover (u ++ '\n' :: "=4um,cst=sp,".toList) ⟨1, 90⟩).map HoverCard.range =
        some ⟨1, 7, 10⟩ := by
  intro e u
  have hu : (⟨1, 90⟩ : Position).line ≤ u.count '\n' := by decide
  obtain ⟨⟨hcomplete, hcut⟩, hhover, hcut'⟩ :=
    answers_append_break e .invoked u "=4um,cst=sp,".toList [] hu
  refine ⟨hu, ?_, ?_⟩
  · rw [hcomplete, hcut]
    decide +kernel
  · rw [hhover, hcut']
    decide +kernel

end Engine

/-! ### The documents of a session -/

variable {Uri : Type} [DecidableEq Uri]

lemma lookup_filter_bne (docs : List (Uri × String)) (uri other : Uri) :
    (docs.filter fun d => d.1 != uri).lookup other =
      if uri = other then none else docs.lookup other := by
  induction docs with
  | nil => simp
  | cons d docs ih =>
    obtain ⟨name, text⟩ := d
    by_cases hname : name = uri
    · subst hname
      rw [List.filter_cons_of_neg (by simp), ih, List.lookup_cons]
      split_ifs with h
      · rfl
      · rw [beq_false_of_ne (Ne.symm h)]
    · rw [List.filter_cons_of_pos (by simpa using hname), List.lookup_cons, List.lookup_cons, ih]
      by_cases hother : other = name
      · subst hother
        simp [Ne.symm hname]
      · rw [beq_false_of_ne hother]

/-- What a call tells about a document: its new text, or that it is closed. -/
def Call.told? (uri : Uri) : Call Uri → Option (Option String)
  | .event (.opened name text) => if name = uri then some (some text) else none
  | .event (.changed name texts) => if name = uri then texts.getLast?.map some else none
  | .event (.closed name) => if name = uri then some none else none
  | .start => none
  | .started => none
  | .stop => none
  | .completion .. => none
  | .hover .. => none

/-- The text that a row of calls leaves of a document: the last call that tells anything about the
document decides. -/
def latestText? (uri : Uri) (calls : List (Call Uri)) : Option String :=
  (calls.filterMap (Call.told? uri)).getLast?.join

namespace Session

variable (s : Session Uri) (uri other : Uri)

lemma document?_put (text : String) :
    (s.put uri text).document? other = if uri = other then some text else s.document? other := by
  rw [document?, put, List.lookup_cons, lookup_filter_bne]
  by_cases h : uri = other
  · simp [h]
  · rw [beq_false_of_ne (Ne.symm h), if_neg h, if_neg h]
    rfl

lemma document?_erase :
    (s.erase uri).document? other = if uri = other then none else s.document? other :=
  lookup_filter_bne s.documents uri other

/-- **One call** leaves a document as it tells, and otherwise as it was. -/
theorem document?_after (call : Call Uri) :
    (s.after call).document? uri = (call.told? uri).getD (s.document? uri) := by
  cases call with
  | start | started | stop | completion | hover => rfl
  | event e =>
    cases e with
    | opened name text =>
      rw [after, handle, document?_put, Call.told?]
      split_ifs <;> rfl
    | closed name =>
      rw [after, handle, document?_erase, Call.told?]
      split_ifs <;> rfl
    | changed name texts =>
      rw [after, handle, Call.told?]
      cases texts.getLast? with
      | none => simp
      | some text =>
        simp only [document?_put, Option.map_some]
        split_ifs <;> rfl

/-- The session after a row of calls. -/
def run (s : Session Uri) (calls : List (Call Uri)) : Session Uri := calls.foldl after s

lemma engine_after (call : Call Uri) : (s.after call).engine = s.engine := by
  cases call with
  | start | started | stop | completion | hover => rfl
  | event e =>
    cases e with
    | opened | closed => rfl
    | changed name texts =>
      rw [after, handle]
      cases texts.getLast? <;> rfl

lemma engine_run (calls : List (Call Uri)) : (s.run calls).engine = s.engine := by
  induction calls generalizing s with
  | nil => rfl
  | cons call calls ih => rw [run, List.foldl_cons, ← run, ih, engine_after]

/-- **A row of calls** leaves a document as the last of them tells that tells anything. -/
theorem document?_run (calls : List (Call Uri)) :
    (s.run calls).document? uri =
      ((calls.filterMap (Call.told? uri)).getLast?).getD (s.document? uri) := by
  induction calls generalizing s with
  | nil => rfl
  | cons call calls ih =>
    rw [run, List.foldl_cons, ← run, ih, document?_after]
    cases h : call.told? uri with
    | none => rw [List.filterMap_cons_none h]; rfl
    | some told =>
      rw [List.filterMap_cons_some h, List.getLast?_cons]
      cases (calls.filterMap (Call.told? uri)).getLast? <;> rfl

/-- A session that begins without documents has the latest text of each. -/
lemma document?_run_start (e : Engine) (calls : List (Call Uri)) :
    (run { engine := e } calls).document? uri = latestText? uri calls := by
  rw [document?_run, latestText?]
  cases (calls.filterMap (Call.told? uri)).getLast? <;> rfl

/-- Each call is answered on the documents that the calls before it leave. -/
lemma getElem?_answers (calls : List (Call Uri)) (i : Nat) :
    (s.answers calls)[i]? = calls[i]?.map (s.run (calls.take i)).answer := by
  induction calls generalizing s i with
  | nil => rfl
  | cons call calls ih =>
    cases i with
    | zero => rfl
    | succ i => exact ih (s.after call) i

lemma length_answers (calls : List (Call Uri)) : (s.answers calls).length = calls.length := by
  induction calls generalizing s with
  | nil => rfl
  | cons call calls ih => rw [answers, List.length_cons, ih, List.length_cons]

lemma getLast?_answers (calls : List (Call Uri)) (call : Call Uri) :
    (s.answers (calls ++ [call])).getLast? = some ((s.run calls).answer call) := by
  rw [List.getLast?_eq_getElem?, length_answers, getElem?_answers]
  simp

end Session

/-! ### The latest text -/

/-- The document that an event is about. -/
def DocumentEvent.uri : DocumentEvent Uri → Uri
  | .opened uri _ => uri
  | .changed uri _ => uri
  | .closed uri => uri

/-- The calls that tell nothing about a document: those around a session, requests, changes without
a text, and events of other documents. -/
inductive Call.Silent (uri : Uri) : Call Uri → Prop where
  | start : Silent uri .start
  | started : Silent uri .started
  | stop : Silent uri .stop
  | completion (name : Uri) (place : EditorPlace) (context : Option (Nat × Option String)) :
    Silent uri (.completion name place context)
  | hover (name : Uri) (place : EditorPlace) : Silent uri (.hover name place)
  | emptyChange (name : Uri) : Silent uri (.event (.changed name []))
  | other {e : DocumentEvent Uri} (he : e.uri ≠ uri) : Silent uri (.event e)

lemma Call.told?_eq_none_iff {uri : Uri} {call : Call Uri} :
    call.told? uri = none ↔ call.Silent uri := by
  constructor
  · intro h
    cases call with
    | start => exact .start
    | started => exact .started
    | stop => exact .stop
    | completion name place context => exact .completion name place context
    | hover name place => exact .hover name place
    | event e =>
      by_cases he : e.uri = uri
      · subst he
        cases e with
        | opened name text => simp [told?, DocumentEvent.uri] at h
        | closed name => simp [told?, DocumentEvent.uri] at h
        | changed name texts =>
          obtain rfl : texts = [] := by simpa [told?, DocumentEvent.uri] using h
          exact .emptyChange name
      · exact .other he
  · intro h
    cases h with
    | start | started | stop | completion | hover => rfl
    | emptyChange name => simp [told?]
    | @other e he => cases e <;> exact if_neg he

/-- Only the closing of a document tells that it has no text. -/
lemma Call.told?_eq_some_none_iff {uri : Uri} {call : Call Uri} :
    call.told? uri = some none ↔ call = .event (.closed uri) := by
  constructor
  · intro h
    cases call with
    | start | started | stop | completion | hover => cases h
    | event e =>
      cases e with
      | opened name text => simp [told?] at h
      | changed name texts => simp [told?] at h
      | closed name =>
        obtain rfl : name = uri := by simpa [told?] using h
        rfl
  · rintro rfl
    simp [told?]

/-- The opening of a document tells its text, and a change the last of its texts. -/
lemma Call.told?_eq_some_some_iff {uri : Uri} {call : Call Uri} {text : String} :
    call.told? uri = some (some text) ↔
      call = .event (.opened uri text) ∨
        ∃ texts, call = .event (.changed uri texts) ∧ texts.getLast? = some text := by
  constructor
  · intro h
    cases call with
    | start | started | stop | completion | hover => cases h
    | event e =>
      cases e with
      | opened name told =>
        obtain ⟨rfl, rfl⟩ : name = uri ∧ told = text := by simpa [told?] using h
        exact Or.inl rfl
      | changed name texts =>
        obtain ⟨rfl, hlast⟩ : name = uri ∧ texts.getLast? = some text := by simpa [told?] using h
        exact Or.inr ⟨texts, rfl, hlast⟩
      | closed name => simp [told?] at h
  · rintro (rfl | ⟨texts, rfl, hlast⟩)
    · simp [told?]
    · simp [told?, hlast]

lemma filterMap_told?_eq_nil_iff {uri : Uri} {calls : List (Call Uri)} :
    calls.filterMap (Call.told? uri) = [] ↔ ∀ call ∈ calls, call.Silent uri := by
  simp only [List.filterMap_eq_nil_iff, Call.told?_eq_none_iff]

/-- The last thing that is told is told by a call with silent ones behind it. -/
lemma getLast?_told_eq_some_iff {uri : Uri} {calls : List (Call Uri)} {told : Option String} :
    (calls.filterMap (Call.told? uri)).getLast? = some told ↔
      ∃ pre call post, calls = pre ++ call :: post ∧ call.told? uri = some told ∧
        ∀ call ∈ post, call.Silent uri := by
  rw [List.getLast?_eq_some_iff]
  constructor
  · rintro ⟨earlier, h⟩
    obtain ⟨pre, rest, rfl, -, hrest⟩ := List.filterMap_eq_append_iff.mp h
    obtain ⟨mid, call, post, rfl, -, hcall, hpost⟩ := List.filterMap_eq_cons_iff.mp hrest
    exact ⟨pre ++ mid, call, post, by simp, hcall, filterMap_told?_eq_nil_iff.mp hpost⟩
  · rintro ⟨pre, call, post, rfl, hcall, hpost⟩
    refine ⟨pre.filterMap (Call.told? uri), ?_⟩
    rw [List.filterMap_append, List.filterMap_cons_some hcall,
      filterMap_told?_eq_nil_iff.mpr hpost]

/-- **A document has no text** exactly if no call tells anything about it, or the last one that does
closes it. -/
lemma latestText?_eq_none_iff {uri : Uri} {calls : List (Call Uri)} :
    latestText? uri calls = none ↔
      (∀ call ∈ calls, call.Silent uri) ∨
        ∃ pre post, calls = pre ++ .event (.closed uri) :: post ∧
          ∀ call ∈ post, call.Silent uri := by
  rw [latestText?, Option.join_eq_none_iff, List.getLast?_eq_none_iff, filterMap_told?_eq_nil_iff,
    getLast?_told_eq_some_iff]
  refine or_congr_right ⟨?_, ?_⟩
  · rintro ⟨pre, call, post, rfl, hcall, hpost⟩
    obtain rfl := Call.told?_eq_some_none_iff.mp hcall
    exact ⟨pre, post, rfl, hpost⟩
  · rintro ⟨pre, post, rfl, hpost⟩
    exact ⟨pre, _, post, rfl, Call.told?_eq_some_none_iff.mpr rfl, hpost⟩

/-- **A document has the text** of the last call that tells anything about it. -/
lemma latestText?_eq_some_iff {uri : Uri} {calls : List (Call Uri)} {text : String} :
    latestText? uri calls = some text ↔
      ∃ pre call post, calls = pre ++ call :: post ∧
        (call = .event (.opened uri text) ∨
          ∃ texts, call = .event (.changed uri texts) ∧ texts.getLast? = some text) ∧
        ∀ call ∈ post, call.Silent uri := by
  rw [latestText?, Option.join_eq_some_iff, getLast?_told_eq_some_iff]
  simp only [Call.told?_eq_some_some_iff]

/-- Silent calls leave the latest text as it is, wherever they come. -/
lemma latestText?_silent {uri : Uri} {silent : List (Call Uri)}
    (h : ∀ call ∈ silent, call.Silent uri) (pre post : List (Call Uri)) :
    latestText? uri (pre ++ silent ++ post) = latestText? uri (pre ++ post) := by
  have hnil : silent.filterMap (Call.told? uri) = [] :=
    List.filterMap_eq_nil_iff.mpr fun call hcall => Call.told?_eq_none_iff.mpr (h call hcall)
  simp only [latestText?, List.filterMap_append, hnil, List.append_nil]

namespace Session

variable (e : Engine) (calls : List (Call Uri)) (uri : Uri) (place : EditorPlace)

lemma answer_completion (context : Option (Nat × Option String)) :
    (run { engine := e } calls).answer (.completion uri place context) =
      .completion ((latestText? uri calls).map fun text =>
        (e.complete text.toList place.position (.ofContext context)).map
          CompletionItem.toEditor) := by
  rw [answer, complete?, document?_run_start, engine_run, Option.map_map]
  rfl

lemma answer_hover :
    (run { engine := e } calls).answer (.hover uri place) =
      .hover ((latestText? uri calls).bind fun text =>
        (e.hover text.toList place.position).map HoverCard.toEditor) := by
  rw [answer, hover?, document?_run_start, engine_run, Option.map_bind]
  rfl

/-- How a completion was asked for: by the first character of what was typed, if the editor says
that a character asked. -/
lemma ofContext_eq (context : Option (Nat × Option String)) :
    Trigger.ofContext context =
      match context with
      | some (2, some typed) => (typed.toList.head?.map Trigger.character).getD .invoked
      | _ => .invoked := by
  match context with
  | none => rfl
  | some (kind, typed) =>
    rw [Trigger.ofContext, Trigger.ofRequest]
    by_cases hkind : kind = 2
    · subst hkind
      cases typed with
      | none => rfl
      | some typed => cases h : typed.toList <;> simp [h]
    · rw [if_neg (by simpa using hkind)]
      split
      · rename_i heq
        cases heq
        exact absurd rfl hkind
      · rfl

/-- **A request is answered on the latest text of its document.**

Whatever calls come in whatever order, a completion or hover request has the answer of the engine on
the latest text, at the same line and character, with every item and the explanation put into the
editor's terms one by one. It has none at all exactly if no earlier call tells anything about the
document or the last one that does closes it; otherwise the text is the one of the last opening, or
the last one of the last change that has any. Calls that tell nothing make no difference, wherever
they come. -/
theorem answers_latest :
    (∀ (i : Nat) context, calls[i]? = some (.completion uri place context) →
      (answers { engine := e } calls)[i]? = some (.completion (
        (latestText? uri (calls.take i)).map fun text =>
          (e.complete text.toList ⟨place.line.toNat, place.character.toNat⟩
            (match context with
              | some (2, some typed) => (typed.toList.head?.map Trigger.character).getD .invoked
              | _ => .invoked)).map fun item =>
            { label := item.label
              kind :=
                match item.kind with
                | .field => 5
                | .container => 9
                | .property => 10
                | .value => 12
                | .snippet => 15
                | .enumMember => 20
              detail := item.detail
              documentation := item.documentation
              insertText := item.insertText
              textFormat := if item.snippet then 2 else 1 }))) ∧
    (∀ i : Nat, calls[i]? = some (.hover uri place) →
      (answers { engine := e } calls)[i]? = some (.hover (
        (latestText? uri (calls.take i)).bind fun text =>
          (e.hover text.toList ⟨place.line.toNat, place.character.toNat⟩).map fun card =>
            { markdown := "**" ++ card.key ++ "** (" ++ card.title ++ ")\n\nUnit: " ++ card.unit ++
                "\n\n" ++ card.description
              start := ⟨.ofNat card.range.line, .ofNat card.range.start⟩
              stop := ⟨.ofNat card.range.line, .ofNat card.range.stop⟩ }))) ∧
    (∀ i, latestText? uri (calls.take i) = none ↔
      (∀ call ∈ calls.take i, call.Silent uri) ∨
        ∃ pre post, calls.take i = pre ++ .event (.closed uri) :: post ∧
          ∀ call ∈ post, call.Silent uri) ∧
    (∀ i text, latestText? uri (calls.take i) = some text ↔
      ∃ pre call post, calls.take i = pre ++ call :: post ∧
        (call = .event (.opened uri text) ∨
          ∃ texts, call = .event (.changed uri texts) ∧ texts.getLast? = some text) ∧
        ∀ call ∈ post, call.Silent uri) ∧
    ∀ silent post context, (∀ call ∈ silent, call.Silent uri) →
      ∀ request ∈ [Call.completion uri place context, .hover uri place],
        (answers { engine := e } (calls ++ silent ++ post ++ [request])).getLast? =
          (answers { engine := e } (calls ++ post ++ [request])).getLast? := by
  refine ⟨fun i context h => ?_, fun i h => ?_, fun i => latestText?_eq_none_iff,
    fun i text => latestText?_eq_some_iff, ?_⟩
  · rw [getElem?_answers, h, Option.map_some, answer_completion, ofContext_eq]
    refine congrArg (fun items => some (Answer.completion items))
      (congrArg (fun shown => Option.map shown _) ?_)
    funext text
    refine List.map_congr_left fun item _ => ?_
    rw [CompletionItem.toEditor]
    cases item.kind <;> rfl
  · rw [getElem?_answers, h, Option.map_some, answer_hover]
    rfl
  · intro silent post context hsilent request hrequest
    have htext := latestText?_silent hsilent calls post
    rw [getLast?_answers, getLast?_answers]
    simp only [List.mem_cons, List.not_mem_nil, or_false] at hrequest
    rcases hrequest with rfl | rfl
    · rw [answer_completion, answer_completion, htext]
    · rw [answer_hover, answer_hover, htext]

/-- Of two documents the one is changed twice and once without a text, and the other is closed. The
requests are about the second line of the first one. -/
theorem answers_latest_two :
    let e : Engine := ⟨Grammar.standard, {}⟩
    let calls : List (Call String) :=
      [.event (.opened "a" "GRP=["), .event (.opened "b" "NRN=[(nid=a"),
        .event (.changed "a" ["NRN=[", "NRN=[\n  (inh="]), .event (.changed "a" []),
        .event (.closed "b"), .hover "b" ⟨0, 7⟩, .completion "a" ⟨1, 7⟩ (some (2, some "=")),
        .hover "a" ⟨1, 4⟩]
    (answers { engine := e } calls)[5]? = some (.hover none) ∧
    (answers { engine := e } calls)[6]? = some (.completion (some (["true", "false"].map
      fun value => {
        label := value
        kind := 20
        detail := some "inhibitory"
        documentation := some "Whether the neuron's outgoing spikes inhibit their targets."
        insertText := none
        textFormat := 1 }))) ∧
    (answers { engine := e } calls)[7]? = some (.hover (some {
      markdown := "**inh** (inhibitory)\n\nUnit: dimensionless\n\n" ++
        "Whether the neuron's outgoing spikes inhibit their targets."
      start := ⟨1, 3⟩
      stop := ⟨1, 6⟩ })) := by
  intro e calls
  refine ⟨(answers_latest e calls "b" ⟨0, 7⟩).2.1 5 rfl, ?_, ?_⟩
  · rw [(answers_latest e calls "a" ⟨1, 7⟩).1 6 (some (2, some "=")) rfl]
    decide +kernel
  · rw [(answers_latest e calls "a" ⟨1, 4⟩).2.1 7 rfl]
    decide +kernel

end Session

end TopologyAssist
