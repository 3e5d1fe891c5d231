import Mathlib.Data.Finset.Card
import ResponseShape.Proofs.Extension

/-! Every call comes to an end, whatever circles the classes form. With each call either fewer
short names of classes are left to take, or as many are left and the call has less to read. Main
statement: `routine_below`. -/
namespace ResponseShape

theorem Expr.nodes_pos (e : Expr) : 0 < e.nodes := by
  unfold Expr.nodes
  split <;> exact Nat.succ_pos _

namespace Inference

variable (config : Config) (w : Workspace)

def freeNames (taken : List String) : Finset String :=
  (w.classNames.map shortName).toFinset.filter (· ∉ taken)

/-- The names that are taken when a call reads its text: a body is read with its name reserved. -/
def Call.taken (r : Registry) : Call → List String
  | .inferClass fullName | .inferBody fullName _ _ | .respond fullName =>
    shortName fullName :: r.names
  | _ => r.names

def bodyNodes (fullName : String) : Nat :=
  ((w.find? fullName).bind fun t => t.body? config.method).elim 0 nodesOfBody

/-- How much a call has to read, in half nodes of syntax trees. A class whose name is taken is not
read. -/
def Call.size (r : Registry) : Call → Nat
  | .inferClass fullName =>
    if shortName fullName ∈ r.names then 0 else 2 * bodyNodes config w fullName + 2
  | .inferBody _ body _ => 2 * nodesOfBody body + 1
  | .inferWithin _ e _ | .classify e _ => 2 * e.nodes
  | .infer e _ => 2 * e.nodes - 1
  | .idiom _ args _ => 2 * nodesOfArgs args + 1
  | .construct _ _ => 1
  | .respond fullName => 2 * bodyNodes config w fullName + 3
  | .sample fullName => 2 * bodyNodes config w fullName + 1

/-- The names left to take when a call reads its text, and how much text that is. -/
def Call.measure (c : Call) (s : Session) : Nat × Nat :=
  ((freeNames w (c.taken s.registry)).card, c.size config w s.registry)

def Below (c : Call) (s : Session) (c' : Call) (s' : Session) : Prop :=
  Prod.Lex (· < ·) (· < ·) (c'.measure config w s') (c.measure config w s)

variable {config w}

theorem card_freeNames_anti {taken more : List String} (h : taken ⊆ more) :
    (freeNames w more).card ≤ (freeNames w taken).card := by
  apply Finset.card_le_card
  intro name free
  rw [freeNames, Finset.mem_filter] at free ⊢
  exact ⟨free.1, fun known => free.2 (h known)⟩

theorem card_freeNames_lt {taken : List String} {fullName : String}
    (declared : w.declares fullName) (free : shortName fullName ∉ taken) :
    (freeNames w (shortName fullName :: taken)).card < (freeNames w taken).card := by
  apply Finset.card_lt_card
  rw [Finset.ssubset_iff_of_subset]
  · refine ⟨shortName fullName, ?_, ?_⟩
    · rw [freeNames, Finset.mem_filter, List.mem_toFinset]
      exact ⟨List.mem_map_of_mem (Table.contains_iff.1 declared), free⟩
    · simp [freeNames]
  · intro name h
    rw [freeNames, Finset.mem_filter, List.mem_cons, not_or] at h
    rw [freeNames, Finset.mem_filter]
    exact ⟨h.1, h.2.2⟩

theorem below_of_size {c c' : Call} {s s' : Session}
    (taken : c.taken s.registry ⊆ c'.taken s'.registry)
    (size : c'.size config w s'.registry < c.size config w s.registry) :
    Below config w c s c' s' := by
  rcases Nat.lt_or_eq_of_le (card_freeNames_anti (w := w) taken) with fewer | same
  · exact Prod.Lex.left _ _ fewer
  · unfold Below Call.measure
    rw [same]
    exact Prod.Lex.right _ size

theorem nodes_lt_of_returned? {fullName : String} {scope : Scope} {e : Expr}
    (h : returned? config w fullName = some (scope, e)) :
    e.nodes < bodyNodes config w fullName := by
  obtain ⟨t, ht, h⟩ := Option.bind_eq_some_iff.1 h
  obtain ⟨body, hb, h⟩ := Option.bind_eq_some_iff.1 h
  obtain ⟨e', hr, same⟩ := Option.bind_eq_some_iff.1 h
  cases same
  have body' : bodyNodes config w fullName = nodesOfBody body := by
    simp [bodyNodes, ht, hb]
  rw [body']
  exact nodes_lt_of_returnValue? hr

theorem nodes_lt_of_expand {reader : Reader} {value content : Expr} {optional : Bool}
    {r : Registry}
    (h : (contributed? config w reader value r).1 = some (.expand content optional)) :
    content.nodes < value.nodes := by
  rw [contributed?_eq] at h
  cases hr : config.read? value with
  | none =>
    rw [hr] at h
    cases h
  | some reading =>
    rw [hr] at h
    obtain ⟨found, flag⟩ := reading
    cases found with
    | splice inner =>
      cases h
      exact Config.nodes_lt_of_read? hr
    | record items =>
      simp only [ofReading, OutlineEntry.bind_run, OutlineEntry.pure_run] at h
      split at h <;> cases h
    | _ => cases h

variable (config w)

open Routine

theorem inferClass_below (fullName : String) (s : Session) :
    (inferClassRoutine config w fullName).CallsOnly (settle config w)
      (Below config w (.inferClass fullName) s) s := by
  rw [inferClassRoutine, callsOnly_bind, run_registry]
  refine ⟨trivial, ?_⟩
  dsimp only
  by_cases taken : s.registry.has (shortName fullName)
  · rw [if_pos taken]
    trivial
  rw [if_neg taken]
  cases found : w.find? fullName with
  | none => trivial
  | some t =>
    cases hb : t.body? config.method with
    | none =>
      dsimp only
      rw [hb]
      trivial
    | some body =>
      dsimp only
      rw [hb]
      dsimp only
      rw [callsOnly_ask]
      apply below_of_size
      · exact List.Subset.refl _
      · rw [Registry.has_iff] at taken
        simp [Call.size, taken, bodyNodes, found, hb]

theorem inferBody_below (fullName : String) (body : List Stmt) (scope : Scope) (s : Session) :
    (inferBodyRoutine fullName body scope).CallsOnly (settle config w)
      (Below config w (.inferBody fullName body scope) s) s := by
  rw [inferBodyRoutine, callsOnly_bind, run_registry]
  refine ⟨trivial, ?_⟩
  dsimp only
  by_cases taken : s.registry.has (shortName fullName)
  · rw [if_pos taken]
    trivial
  rw [if_neg taken]
  rw [Registry.has_iff] at taken
  cases hr : returnValue? body with
  | none => trivial
  | some e =>
    cases e with
    | array items =>
      dsimp only
      rw [callsOnly_bind, run_change, callsOnly_bind, callsOnly_ask]
      refine ⟨trivial, ?_, ?_⟩
      · apply below_of_size
        · intro name
          simp [Call.taken, Registry.names_reserve taken, or_comm]
        · have := nodes_lt_of_returnValue? hr
          simp only [Call.size]
          omega
      · split <;> trivial
    | _ => trivial

theorem itemRoutine_extends (scope : Scope) (key : Option Expr) (fields : List Field)
    (contributed : Option Contributed) (s : Session) :
    s.Extends ((itemRoutine scope key fields contributed).run (settle config w) s).2 := by
  have same : s.Extends s := ⟨.refl _, rfl⟩
  cases contributed with
  | none => exact same
  | some contributed =>
    cases contributed with
    | field shape required => exact same
    | expand content optional =>
      rw [itemRoutine]
      by_cases keyed : key.isSome
      · rw [if_pos keyed]
        exact same
      · rw [if_neg keyed]
        change s.Extends ((ask (.infer content scope) >>= _).run (settle config w) s).2
        rw [run_bind, run_ask]
        have grown := settle_extends config w (.infer content scope) s
        split <;> exact grown

theorem itemRoutine_callsOnly {scope : Scope} {P : Call → Session → Prop}
    {contributed : Option Contributed} {s : Session} (key : Option Expr) (fields : List Field)
    (infer : ∀ content optional, contributed = some (.expand content optional) →
      P (.infer content scope) s) :
    (itemRoutine scope key fields contributed).CallsOnly (settle config w) P s := by
  cases contributed with
  | none => trivial
  | some contributed =>
    cases contributed with
    | field shape required => trivial
    | expand content optional =>
      rw [itemRoutine]
      by_cases keyed : key.isSome
      · rw [if_pos keyed]
        trivial
      · rw [if_neg keyed]
        rw [callsOnly_bind, callsOnly_ask]
        refine ⟨infer content optional rfl, ?_⟩
        split <;> trivial

theorem itemsRoutine_callsOnly {scope : Scope} {P : Call → Session → Prop} {known : List String}
    {bound : Nat}
    (classify : ∀ (e : Expr) (s : Session), e.nodes < bound → known ⊆ s.registry.names →
      P (.classify e scope) s)
    (infer : ∀ (e : Expr) (s : Session), e.nodes < bound → known ⊆ s.registry.names →
      P (.infer e scope) s)
    (items : List ArrayItem) (less : nodesOfItems items ≤ bound) (fields : List Field) (s : Session)
    (later : known ⊆ s.registry.names) :
    (itemsRoutine scope fields items).CallsOnly (settle config w) P s := by
  induction items generalizing fields s with
  | nil => trivial
  | cons item rest ih =>
    obtain ⟨key, value, unpacked⟩ := item
    have here : value.nodes < bound ∧ nodesOfItems rest ≤ bound := by
      cases key <;> simp only [nodesOfItems] at less <;> omega
    rw [itemsRoutine]
    cases unpacked with
    | true => exact ih here.2 fields s later
    | false =>
      rw [if_neg Bool.false_ne_true, callsOnly_bind, callsOnly_ask, callsOnly_bind, run_ask]
      have grown := settle_extends config w (.classify value scope) s
      have later' := List.Subset.trans later grown.registry.names_subset
      refine ⟨classify value s here.1 later, ?_, ?_⟩
      · apply itemRoutine_callsOnly
        intro content optional expands
        exact infer content _ (Nat.lt_trans (nodes_lt_of_expand expands) here.1) later'
      · apply ih here.2
        exact List.Subset.trans later'
          (itemRoutine_extends config w scope key fields _ _).registry.names_subset

theorem inferWithin_below (fullName : String) (e : Expr) (scope : Scope) (s : Session) :
    (inferWithinRoutine fullName e scope).CallsOnly (settle config w)
      (Below config w (.inferWithin fullName e scope) s) s := by
  rw [inferWithinRoutine, callsOnly_bind, run_enter, callsOnly_bind, callsOnly_ask]
  refine ⟨trivial, ?_, trivial⟩
  apply below_of_size
  · exact List.Subset.refl _
  · have := e.nodes_pos
    simp only [Call.size]
    omega

theorem infer_below (e : Expr) (scope : Scope) (s : Session) :
    (inferRoutine e scope).CallsOnly (settle config w) (Below config w (.infer e scope) s) s := by
  cases e with
  | array items =>
    rw [inferRoutine, callsOnly_bind]
    refine ⟨?_, trivial⟩
    refine itemsRoutine_callsOnly config w ?_ ?_ items (Nat.le_refl _) [] s (List.Subset.refl _)
    · intro e s' less later
      refine below_of_size later ?_
      simp only [Call.size, Expr.nodes]
      omega
    · intro e s' less later
      refine below_of_size later ?_
      simp only [Call.size, Expr.nodes]
      omega
  | _ => trivial

theorem classify_below (e : Expr) (scope : Scope) (s : Session) :
    (classifyRoutine config e scope).CallsOnly (settle config w)
      (Below config w (.classify e scope) s) s := by
  cases e with
  | property target name nullsafe =>
    rw [classifyRoutine]
    split <;> trivial
  | new owner args =>
    rw [classifyRoutine, callsOnly_bind, callsOnly_ask]
    refine ⟨below_of_size (List.Subset.refl _) ?_, trivial⟩
    simp only [Call.size, Expr.nodes]
    omega
  | array items =>
    rw [classifyRoutine, callsOnly_bind, callsOnly_ask]
    refine ⟨below_of_size (List.Subset.refl _) ?_, ?_⟩
    · simp only [Call.size, Expr.nodes]
      omega
    · split
      · trivial
      · split <;> trivial
  | methodCall target method args nullsafe =>
    rw [classifyRoutine]
    split
    · rw [callsOnly_ask]
      refine below_of_size (List.Subset.refl _) ?_
      have := target.nodes_pos
      simp only [Call.size, Expr.nodes]
      omega
    · trivial
  | _ => trivial

theorem idiom_below (method : String) (args : List Expr) (scope : Scope) (s : Session) :
    (idiomRoutine config method args scope).CallsOnly (settle config w)
      (Below config w (.idiom method args scope) s) s := by
  rw [idiomRoutine]
  split
  · cases ha : Config.argument? args 1 with
    | none => trivial
    | some value =>
      dsimp only
      rw [callsOnly_bind, callsOnly_ask]
      refine ⟨below_of_size (List.Subset.refl _) ?_, trivial⟩
      have := Config.nodes_le_of_argument? ha
      simp only [Call.size]
      omega
  · split
    · trivial
    · split <;> trivial

theorem construct_below (owner : Name) (scope : Scope) (s : Session) :
    (constructRoutine w owner scope).CallsOnly (settle config w)
      (Below config w (.construct owner scope) s) s := by
  rw [constructRoutine, callsOnly_bind, run_reader]
  refine ⟨trivial, ?_⟩
  dsimp only
  generalize Reader.className _ w owner = fullName
  by_cases declared : w.declares fullName
  · rw [if_pos declared, callsOnly_bind, callsOnly_ask]
    refine ⟨?_, by split <;> trivial⟩
    by_cases taken : shortName fullName ∈ s.registry.names
    · apply below_of_size
      · exact List.subset_cons_self _ _
      · simp [Call.size, taken]
    · exact Prod.Lex.left _ _ (card_freeNames_lt declared taken)
  · rw [if_neg declared]
    trivial

theorem respond_below (fullName : String) (s : Session) :
    (respondRoutine fullName).CallsOnly (settle config w)
      (Below config w (.respond fullName) s) s := by
  rw [respondRoutine, callsOnly_bind, callsOnly_ask]
  refine ⟨below_of_size (List.Subset.refl _) ?_, trivial⟩
  simp only [Call.size]
  split <;> omega

theorem sample_below (fullName : String) (s : Session) :
    (sampleRoutine config w fullName).CallsOnly (settle config w)
      (Below config w (.sample fullName) s) s := by
  rw [sampleRoutine]
  cases hr : returned? config w fullName with
  | none => trivial
  | some found =>
    obtain ⟨scope, e⟩ := found
    dsimp only
    rw [callsOnly_ask]
    refine below_of_size (List.Subset.refl _) ?_
    have := nodes_lt_of_returned? hr
    simp only [Call.size]
    omega

theorem routine_below : ∀ (c : Call) (s : Session),
    (routine config w c).CallsOnly (settle config w) (Below config w c s) s
  | .inferClass fullName, s => inferClass_below config w fullName s
  | .inferBody fullName body scope, s => inferBody_below config w fullName body scope s
  | .inferWithin fullName e scope, s => inferWithin_below config w fullName e scope s
  | .infer e scope, s => infer_below config w e scope s
  | .classify e scope, s => classify_below config w e scope s
  | .idiom method args scope, s => idiom_below config w method args scope s
  | .construct owner scope, s => construct_below config w owner scope s
  | .respond fullName, s => respond_below config w fullName s
  | .sample fullName, s => sample_below config w fullName s

variable {config w} in
theorem below_of_asks {c c' : Call} {s s' : Session}
    (h : Asks config w (routine config w c s) c' s') : Below config w c s c' s' :=
  h.callsOnly (settle_fixed config w) (routine_below config w c s)

theorem exists_returns (c : Call) (s : Session) :
    ∃ a s', Returns config w (routine config w c s) a s' := by
  have wf : WellFounded (Prod.Lex (· < ·) (· < ·) : Nat × Nat → Nat × Nat → Prop) :=
    (Prod.lex ⟨_, Nat.lt_wfRel.wf⟩ ⟨_, Nat.lt_wfRel.wf⟩).wf
  induction hm : c.measure config w s using wf.induction generalizing c s with
  | _ m ih =>
    apply exists_returns_of_asks
    intro c' s' asks
    exact ih _ (hm ▸ below_of_asks asks) c' s' rfl

theorem returns_iff (c : Call) (s : Session) (a : c.Answer) (s' : Session) :
    Returns config w (routine config w c s) a s' ↔ settle config w c s = (a, s') := by
  have told {b : c.Answer} {t : Session} (h : Returns config w (routine config w c s) b t) :
      settle config w c s = (b, t) :=
    (settle_fixed config w c s).symm.trans (h.eval_eq (settle_fixed config w))
  constructor
  · exact told
  · intro settled
    obtain ⟨b, t, h⟩ := exists_returns config w c s
    cases settled.symm.trans (told h)
    exact h

/-- Every call comes to an end, with the answer of the functions that visit classes, and each call
that it makes on the way has less before it. -/
theorem calls_terminate (c : Call) (s : Session) :
    (∃ a s', Returns config w (routine config w c s) a s' ∧ settle config w c s = (a, s')) ∧
      ∀ c' s', Asks config w (routine config w c s) c' s' →
        Prod.Lex (· < ·) (· < ·) (c'.measure config w s') (c.measure config w s) := by
  obtain ⟨a, s', h⟩ := exists_returns config w c s
  exact ⟨⟨a, s', h, (returns_iff config w c s a s').1 h⟩, fun _ _ asks => below_of_asks asks⟩

/-- Every call has one outcome, which leaves the entries before it and the stack as they were. -/
theorem call_extends (c : Call) (s : Session) :
    (∀ a s', Returns config w (routine config w c s) a s' ↔ settle config w c s = (a, s')) ∧
      s.Extends (settle config w c s).2 :=
  ⟨returns_iff config w c s, settle_extends config w c s⟩

end Inference

end ResponseShape
