import Mathlib.Data.List.Infix
import Mathlib.Data.List.Nodup
import TokenGrammar.Rule.Catalog

namespace TokenGrammar.Catalog

/-! # A catalog in use

A catalog compiles a rule when it is used for the first time, and keeps what came of that, be it a
descriptor or an error. Its answers are those of a compiler that has been run for every rule
beforehand, whichever rules are used and in whatever order. -/

/-- What is asked of a catalog about a rule. -/
inductive Request (Key : Type) where
  | tryDescriptor (rule : Key)
  | requireDescriptor (rule : Key)
  | isCached (rule : Key)
deriving DecidableEq, Repr

inductive Answer where
  | entry (entry : Except GrammarError StoredDescriptor)
  | required (outcome : Except Fault StoredDescriptor)
  | cached (known : Bool)

variable {Key : Type} [DecidableEq Key]

/-- The rule that a request uses. To ask whether a rule is there is no use of it. -/
def Request.used? : Request Key → Option Key
  | tryDescriptor rule => some rule
  | requireDescriptor rule => some rule
  | isCached _ => none

/-- What is to be answered after other requests if every rule has an entry from the start. -/
def Request.answer (entry : Key → Except GrammarError StoredDescriptor)
    (earlier : List (Request Key)) : Request Key → Answer
  | tryDescriptor rule => .entry (entry rule)
  | requireDescriptor rule => .required ((entry rule).mapError .malformed)
  | isCached rule => .cached (earlier.any fun request => request.used? = some rule)

def serve (declared : Key → Declaration) (catalog : Catalog Key) :
    Request Key → Answer × Catalog Key
  | .tryDescriptor rule =>
    let (entry, after) := catalog.tryDescriptor rule (declared rule)
    (.entry entry, after)
  | .requireDescriptor rule =>
    let (outcome, after) := catalog.requireDescriptor rule (declared rule)
    (.required outcome, after)
  | .isCached rule => (.cached (catalog.isCached rule), catalog)

/-- A request with its answer and the catalog after it. -/
structure Step (Key : Type) where
  request : Request Key
  answer : Answer
  after : Catalog Key

/-- What a catalog answers to requests one after another. -/
def history (declared : Key → Declaration) : Catalog Key → List (Request Key) → List (Step Key)
  | _, [] => []
  | catalog, request :: later =>
    let (answer, after) := catalog.serve declared request
    ⟨request, answer, after⟩ :: history declared after later

section FirstUses

/-- The rules that some requests use, in the order of first use. -/
def firstUses (requests : List (Request Key)) : List Key :=
  (requests.filterMap Request.used?).eraseDups

theorem mem_firstUses {requests : List (Request Key)} {rule : Key} :
    rule ∈ firstUses requests ↔ ∃ request ∈ requests, request.used? = some rule := by
  rw [firstUses, List.mem_eraseDups, List.mem_filterMap]

theorem firstUses_concat_of_none (requests : List (Request Key)) {request : Request Key}
    (unused : request.used? = none) : firstUses (requests ++ [request]) = firstUses requests := by
  simp [firstUses, List.filterMap_append, unused]

theorem firstUses_concat {request : Request Key} (uses : request.used? = some rule)
    (requests : List (Request Key)) :
    firstUses (requests ++ [request]) =
      if rule ∈ firstUses requests then firstUses requests
      else firstUses requests ++ [rule] := by
  rw [firstUses, List.filterMap_append, List.eraseDups_append, List.filterMap_cons_some uses,
    List.filterMap_nil, List.cons_removeAll, List.nil_removeAll, firstUses]
  by_cases again : rule ∈ requests.filterMap Request.used?
  · rw [if_neg (by simpa using again), if_pos (List.mem_eraseDups.mpr again)]
    exact List.append_nil _
  · rw [if_pos (by simpa using again), if_neg (mt List.mem_eraseDups.mp again)]
    rfl

theorem firstUses_kept (earlier later : List (Request Key)) :
    firstUses earlier <+: firstUses (earlier ++ later) := by
  rw [firstUses, firstUses, List.filterMap_append, List.eraseDups_append]
  exact List.prefix_append _ _

theorem nodup_firstUses (requests : List (Request Key)) : (firstUses requests).Nodup := by
  induction requests using List.reverseRecOn with
  | nil => exact List.nodup_nil
  | append_singleton requests request ih =>
      cases uses : request.used? with
      | none => rwa [firstUses_concat_of_none requests uses]
      | some rule =>
          rw [firstUses_concat uses]
          split
          · exact ih
          · rw [← List.concat_eq_append]
            exact List.Nodup.concat ‹_› ih

end FirstUses

section Entries

variable (declared : Key → Declaration)

/-- The entry of a rule. Its descriptor is stored behind those of the rules used before. -/
def entryAmong (rules : List Key) (rule : Key) : Except GrammarError StoredDescriptor :=
  (declared rule).compile.map (⟨rules.idxOf rule, ·⟩)

/-- The catalog of the rules that have been used, in the order of first use. -/
def ofRules (rules : List Key) : Catalog Key :=
  ⟨rules.map fun rule => (rule, entryAmong declared rules rule), rules⟩

variable {declared} {rules : List Key} {rule : Key}

theorem isCached_ofRules : (ofRules declared rules).isCached rule = decide (rule ∈ rules) := by
  simp [isCached, ofRules, List.any_map, Function.comp_def, List.any_beq']

theorem lookup_ofRules_of_mem (known : rule ∈ rules) :
    (ofRules declared rules).entries.lookup rule = some (entryAmong declared rules rule) :=
  List.lookup_graph _ known

theorem lookup_ofRules_of_not_mem (unknown : rule ∉ rules) :
    (ofRules declared rules).entries.lookup rule = none := by
  rw [List.lookup_eq_none_iff]
  intro entry member
  obtain ⟨other, among, rfl⟩ := List.mem_map.mp member
  simp only [bne_iff_ne]
  rintro rfl
  exact unknown among

theorem entryAmong_kept {more : List Key} (earlier : rules <+: more) (known : rule ∈ rules) :
    entryAmong declared more rule = entryAmong declared rules rule := by
  rw [entryAmong, entryAmong, earlier.idxOf_eq_of_mem known]

theorem place_of_entryAmong (found : entryAmong declared rules rule = .ok stored) :
    stored.place = rules.idxOf rule := by
  cases compiled : (declared rule).compile with
  | error error => simp [entryAmong, compiled, Except.map] at found
  | ok descriptor =>
      simp only [entryAmong, compiled, Except.map, Except.ok.injEq] at found
      rw [← found]

theorem tryDescriptor_of_mem (known : rule ∈ rules) :
    (ofRules declared rules).tryDescriptor rule (declared rule) =
      (entryAmong declared rules rule, ofRules declared rules) := by
  simp only [tryDescriptor, lookup_ofRules_of_mem known]

theorem tryDescriptor_of_not_mem (unknown : rule ∉ rules) :
    (ofRules declared rules).tryDescriptor rule (declared rule) =
      (entryAmong declared (rules ++ [rule]) rule, ofRules declared (rules ++ [rule])) := by
  have own : entryAmong declared (rules ++ [rule]) rule =
      (declared rule).compile.map (⟨rules.length, ·⟩) := by
    rw [entryAmong, List.idxOf_append_of_notMem unknown, List.idxOf_cons_self, Nat.add_zero]
  have kept : rules.map (fun other => (other, entryAmong declared (rules ++ [rule]) other)) =
      rules.map fun other => (other, entryAmong declared rules other) :=
    List.map_congr_left fun other known =>
      congrArg (Prod.mk other) (entryAmong_kept (List.prefix_append rules [rule]) known)
  simp only [tryDescriptor, lookup_ofRules_of_not_mem unknown, compile]
  simp only [ofRules, List.map_append, List.map_cons, List.map_nil, kept, own]

/-- Using a rule finds its entry, and makes it the first time. -/
theorem tryDescriptor_firstUses (request : Request Key) (uses : request.used? = some rule)
    (earlier : List (Request Key)) :
    (ofRules declared (firstUses earlier)).tryDescriptor rule (declared rule) =
      (entryAmong declared (firstUses (earlier ++ [request])) rule,
        ofRules declared (firstUses (earlier ++ [request]))) := by
  rw [firstUses_concat uses]
  split
  · exact tryDescriptor_of_mem ‹_›
  · exact tryDescriptor_of_not_mem ‹_›

/-- One request of any kind: what it is answered, and the catalog with one request more behind
it. -/
theorem serve_ofRules (earlier : List (Request Key)) (request : Request Key) :
    (ofRules declared (firstUses earlier)).serve declared request =
      (request.answer (entryAmong declared (firstUses (earlier ++ [request]))) earlier,
        ofRules declared (firstUses (earlier ++ [request]))) := by
  cases request with
  | tryDescriptor rule =>
      simp only [serve, Request.answer, tryDescriptor_firstUses (.tryDescriptor rule) rfl]
  | requireDescriptor rule =>
      simp only [serve, requireDescriptor, Request.answer,
        tryDescriptor_firstUses (.requireDescriptor rule) rfl]
  | isCached rule =>
      have known : (ofRules declared (firstUses earlier)).isCached rule =
          earlier.any fun request => request.used? = some rule := by
        rw [isCached_ofRules, Bool.eq_iff_iff]
        simp [mem_firstUses]
      have unused : firstUses (earlier ++ [.isCached rule]) = firstUses earlier :=
        firstUses_concat_of_none earlier rfl
      simp only [serve, Request.answer, known, unused]

end Entries

section Histories

variable {declared : Key → Declaration}

theorem map_request_history (catalog : Catalog Key) (requests : List (Request Key)) :
    (history declared catalog requests).map (·.request) = requests := by
  induction requests generalizing catalog with
  | nil => rfl
  | cons request later ih => simp only [history, List.map_cons, ih]

/-- Each step of a history answers its request as the requests before it demand. -/
theorem history_step (before : List (Request Key)) {requests : List (Request Key)}
    (split : history declared (ofRules declared (firstUses before)) requests =
      earlier ++ step :: later) :
    let past := before ++ earlier.map (·.request)
    let used := firstUses (past ++ [step.request])
    step.answer = step.request.answer (entryAmong declared used) past ∧
      step.after = ofRules declared used := by
  -- The first step leaves a catalog of the same form, with one request more behind it.
  induction earlier generalizing before requests with
  | nil =>
      cases requests with
      | nil => cases split
      | cons request rest =>
          rw [history, serve_ofRules, List.nil_append] at split
          cases split
          simp only [List.map_nil, List.append_nil, and_self]
  | cons first earlier ih =>
      cases requests with
      | nil => cases split
      | cons request rest =>
          rw [history, serve_ofRules, List.cons_append] at split
          obtain ⟨begins, goesOn⟩ := List.cons.inj split
          cases begins
          simpa only [List.map_cons, List.append_assoc, List.cons_append, List.nil_append] using
            ih _ goesOn

theorem Request.answer_congr {request : Request Key}
    {entry other : Key → Except GrammarError StoredDescriptor}
    (same : ∀ rule, request.used? = some rule → entry rule = other rule)
    (earlier : List (Request Key)) :
    request.answer entry earlier = request.answer other earlier := by
  cases request with
  | tryDescriptor rule | requireDescriptor rule => rw [answer, answer, same rule rfl]
  | isCached rule => rfl

/-- A catalog that is empty at first answers every request as if each rule had been compiled
before, to an entry that no request changes. A rule is compiled once if it is used at all, and no
two rules that are used share a place. -/
theorem history_refines (declared : Key → Declaration) (requests : List (Request Key)) :
    let steps := history declared empty requests
    steps.map (·.request) = requests ∧
    ∃ entry : Key → Except GrammarError StoredDescriptor,
      (∀ rule, (entry rule).map (·.descriptor) = (declared rule).compile) ∧
      (∀ rule ∈ firstUses requests, ∀ other stored another,
        entry rule = .ok stored → entry other = .ok another → stored.place = another.place →
          rule = other) ∧
      ∀ earlier step later, steps = earlier ++ step :: later →
        let past := earlier.map (·.request)
        let used := firstUses (past ++ [step.request])
        step.answer = step.request.answer entry past ∧
        ∀ rule,
          step.after.entries.lookup rule = (if rule ∈ used then some (entry rule) else none) ∧
          step.after.compilations.count rule = if rule ∈ used then 1 else 0 := by
  intro steps
  refine ⟨map_request_history empty requests, entryAmong declared (firstUses requests), ?_, ?_, ?_⟩
  · intro rule
    rw [entryAmong]
    cases (declared rule).compile <;> rfl
  · intro rule known other stored another found foundOther same
    rw [place_of_entryAmong found, place_of_entryAmong foundOther] at same
    exact (List.idxOf_inj known).mp same
  · intro earlier step later split past used
    obtain ⟨answers, after⟩ := history_step [] split
    have whole : requests = past ++ [step.request] ++ later.map (·.request) := by
      calc requests = steps.map (·.request) := (map_request_history empty requests).symm
        _ = past ++ [step.request] ++ later.map (·.request) := by simp [split, past]
    have kept : ∀ rule ∈ used,
        entryAmong declared (firstUses requests) rule = entryAmong declared used rule := by
      intro rule known
      rw [whole]
      exact entryAmong_kept (firstUses_kept _ _) known
    refine ⟨?_, fun rule => ⟨?_, ?_⟩⟩
    · rw [answers]
      refine Request.answer_congr (fun rule uses => (kept rule ?_).symm) past
      exact mem_firstUses.mpr ⟨step.request, by simp, uses⟩
    · rw [after]
      split
      · rw [kept rule ‹_›]
        exact lookup_ofRules_of_mem ‹_›
      · exact lookup_ofRules_of_not_mem ‹_›
    · rw [after]
      exact (nodup_firstUses _).count

/-- Two rules of one name, of which one is malformed. It is compiled where a parse asks for it and
cannot go on, and its error is kept beside the descriptor of the other one. -/
theorem history_refines_same_name :
    let declared (malformed : Bool) : Declaration :=
      ⟨"List", if malformed then none else some ⟨.seq, ""⟩,
        [⟨"items", .token, .single, "", "", ""⟩], "List"⟩
    let requests : List (Request Bool) :=
      [.isCached true, .requireDescriptor true, .tryDescriptor false, .tryDescriptor true]
    let steps := history declared empty requests
    ∃ entry : Bool → Except GrammarError StoredDescriptor,
      entry true = .error (.missingMarker "List") ∧
      (entry false).map (·.descriptor) = (declared false).compile ∧
      steps.map (·.answer) = [.cached false, .required ((entry true).mapError .malformed),
        .entry (entry false), .entry (entry true)] ∧
      ∀ step ∈ steps.getLast?, step.after.compilations.count true = 1 := by
  intro declared requests steps
  obtain ⟨_, entry, compiled, _, each⟩ := history_refines declared requests
  have malformed : entry true = .error (.missingMarker "List") := by
    have refused := compiled true
    cases found : entry true with
    | error error =>
        rw [found] at refused
        cases refused
        rfl
    | ok stored =>
        rw [found] at refused
        cases refused
  have first := (each [] _ _ rfl).1
  have second := (each (steps.take 1) _ _ rfl).1
  have third := (each (steps.take 2) _ _ rfl).1
  obtain ⟨fourth, catalog⟩ := each (steps.take 3) _ [] rfl
  refine ⟨entry, malformed, compiled false, ?_, fun step last => ?_⟩
  · exact congrArg₂ List.cons first (congrArg₂ List.cons second
      (congrArg₂ List.cons third (congrArg₂ List.cons fourth rfl)))
  · cases last
    exact (catalog true).2

end Histories
end TokenGrammar.Catalog

