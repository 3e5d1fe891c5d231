import ResponseShape.Proofs.Registry

/-! The order in which classes are read when nothing is stored: depth first, a class before those
it constructs, each where it is first met. Main statement: `mem_preorder_iff`, by which exactly the
reachable classes that return an array come up. -/
namespace ResponseShape.Inference

variable (config : Config) (w : Workspace)

def array? (fullName : String) : Option (Scope × List ArrayItem) := do
  let t ← w.find? fullName
  match ← returnValue? (← t.body? config.method) with
  | .array items => some (t.scope, items)
  | _ => none

/-- The full names of the classes that the array of a class constructs, in source order. -/
def constructed (fullName : String) : List String :=
  match array? config w fullName with
  | some (scope, items) =>
    (ownersOf (config.outline items)).map (Reader.className ⟨scope, some fullName⟩ w)
  | none => []

theorem find?_of_array? {fullName : String} (h : (array? config w fullName).isSome) :
    (w.find? fullName).isSome := by
  unfold array? at h
  cases hf : w.find? fullName with
  | none => simp [hf] at h
  | some t => rfl

theorem mem_classNames_of_array? {fullName : String} (h : (array? config w fullName).isSome) :
    fullName ∈ w.classNames :=
  Table.contains_iff.1 (find?_of_array? config w h)

/-- How many classes have a key that is not taken yet. -/
def untaken (key : String → String) (taken : List String) : Nat :=
  w.classNames.countP fun fullName => key fullName ∉ taken

variable {config w}

theorem untaken_anti {key : String → String} {taken more : List String} (h : taken ⊆ more) :
    untaken w key more ≤ untaken w key taken := by
  apply List.countP_mono_left
  intro fullName _ free
  simp only [decide_eq_true_eq] at free ⊢
  exact fun known => free (h known)

theorem untaken_lt {key : String → String} {taken more : List String} {fullName : String}
    (h : taken ⊆ more) (declared : fullName ∈ w.classNames) (before : key fullName ∉ taken)
    (after : key fullName ∈ more) : untaken w key more < untaken w key taken := by
  obtain ⟨front, back, split⟩ := List.append_of_mem declared
  have fewer (names : List String) :
      names.countP (fun x => decide (key x ∉ more)) ≤
        names.countP (fun x => decide (key x ∉ taken)) := by
    apply List.countP_mono_left
    intro x _ free
    simp only [decide_eq_true_eq] at free ⊢
    exact fun known => free (h known)
  have here := fewer front
  have there := fewer back
  unfold untaken
  rw [split, List.countP_append, List.countP_append,
    List.countP_cons_of_neg (by simpa using after), List.countP_cons_of_pos (by simpa using before)]
  omega

variable (config w)

/-- The classes that are read from a stack of full names, a class with a taken key being passed
over: with the identity as key, each class once. -/
def preorder (key : String → String) (taken : List String) : List String → List String
  | [] => []
  | fullName :: rest =>
    if _h : key fullName ∉ taken ∧ (array? config w fullName).isSome then
      fullName :: preorder key (taken ++ [key fullName]) (constructed config w fullName ++ rest)
    else preorder key taken rest
termination_by stack => (untaken w key taken, stack.length)
decreasing_by
  · exact Prod.Lex.left _ _ (untaken_lt (List.subset_append_left _ _)
      (mem_classNames_of_array? config w _h.2) _h.1 (by simp))
  · exact Prod.Lex.right _ (Nat.lt_succ_self _)

variable {config w} {key : String → String}

theorem preorder_append (taken front back : List String) :
    preorder config w key taken (front ++ back) =
      preorder config w key taken front ++
        preorder config w key (taken ++ (preorder config w key taken front).map key) back := by
  fun_induction preorder config w key taken front with
  | case1 taken => simp
  | case2 taken fullName rest fresh ih =>
    rw [List.cons_append, preorder, dif_pos fresh, ← List.append_assoc, ih]
    simp
  | case3 taken fullName rest skip ih =>
    rw [List.cons_append, preorder, dif_neg skip]
    exact ih

theorem array?_of_mem_preorder {taken stack : List String} {fullName : String}
    (h : fullName ∈ preorder config w key taken stack) : (array? config w fullName).isSome := by
  fun_induction preorder config w key taken stack with
  | case1 => cases h
  | case2 taken first rest fresh ih =>
    rcases List.mem_cons.1 h with rfl | h
    · exact fresh.2
    · exact ih h
  | case3 taken first rest skip ih => exact ih h

theorem nodup_preorder {taken : List String} (stack : List String) (distinct : taken.Nodup) :
    (taken ++ (preorder config w key taken stack).map key).Nodup := by
  fun_induction preorder config w key taken stack with
  | case1 taken => simpa using distinct
  | case2 taken fullName rest fresh ih =>
    have distinct' : (taken ++ [key fullName]).Nodup := by
      rw [← List.concat_eq_append]
      exact distinct.concat fresh.1
    simpa using ih distinct'
  | case3 taken fullName rest skip ih => exact ih distinct

/-- Every class on the stack and every class that comes up constructs is taken in the end. -/
theorem taken_of_preorder (taken stack : List String) {fullName : String}
    (h : fullName ∈ stack ∨
      ∃ x ∈ preorder config w key taken stack, fullName ∈ constructed config w x)
    (hasArray : (array? config w fullName).isSome) :
    key fullName ∈ taken ++ (preorder config w key taken stack).map key := by
  fun_induction preorder config w key taken stack with
  | case1 taken => simp at h
  | case2 taken first rest fresh ih =>
    rw [List.map_cons, List.append_cons]
    rcases h with h | ⟨x, hx, h⟩
    · rcases List.mem_cons.1 h with rfl | h
      · simp
      · exact ih (Or.inl (List.mem_append_right _ h))
    · rcases List.mem_cons.1 hx with rfl | hx
      · exact ih (Or.inl (List.mem_append_left _ h))
      · exact ih (Or.inr ⟨x, hx, h⟩)
  | case3 taken first rest skip ih =>
    rcases h with h | h
    · rcases List.mem_cons.1 h with rfl | h
      · have known : key fullName ∈ taken := by
          apply Decidable.byContradiction
          intro new
          exact skip ⟨new, hasArray⟩
        exact List.mem_append_left _ known
      · exact ih (Or.inl h)
    · exact ih (Or.inr h)

variable (config w)

/-- The classes with an array that are requested, or constructed by a reachable class. -/
inductive Reachable (requested : List String) : String → Prop
  | request {fullName : String} : fullName ∈ requested → (array? config w fullName).isSome →
      Reachable requested fullName
  | construct {fullName other : String} : Reachable requested fullName →
      other ∈ constructed config w fullName → (array? config w other).isSome →
      Reachable requested other

variable {config w}

theorem Reachable.array? {requested : List String} {fullName : String}
    (h : Reachable config w requested fullName) : (array? config w fullName).isSome := by
  cases h with
  | request _ hasArray => exact hasArray
  | construct _ _ hasArray => exact hasArray

theorem reachable_of_mem_preorder {requested taken stack : List String} {fullName : String}
    (hs : ∀ x ∈ stack, (Inference.array? config w x).isSome → Reachable config w requested x)
    (h : fullName ∈ preorder config w key taken stack) :
    Reachable config w requested fullName := by
  fun_induction preorder config w key taken stack with
  | case1 => cases h
  | case2 taken first rest fresh ih =>
    have here := hs first List.mem_cons_self fresh.2
    rcases List.mem_cons.1 h with rfl | h
    · exact here
    · apply ih _ h
      intro x hx hasArray
      rcases List.mem_append.1 hx with hx | hx
      · exact here.construct hx hasArray
      · exact hs x (List.mem_cons_of_mem _ hx) hasArray
  | case3 taken first rest skip ih =>
    exact ih (fun x hx => hs x (List.mem_cons_of_mem _ hx)) h

theorem mem_preorder_iff {requested : List String} {fullName : String} :
    fullName ∈ preorder config w id [] requested ↔ Reachable config w requested fullName := by
  constructor
  · exact reachable_of_mem_preorder fun x hx hasArray => .request hx hasArray
  · intro h
    have taken {x : String} (hx : x ∈ requested ∨
        ∃ y ∈ preorder config w id [] requested, x ∈ constructed config w y)
        (hasArray : (array? config w x).isSome) : x ∈ preorder config w id [] requested := by
      simpa using taken_of_preorder [] requested hx hasArray
    induction h with
    | request hx hasArray => exact taken (Or.inl hx) hasArray
    | construct _ hx hasArray ih => exact taken (Or.inr ⟨_, ih, hx⟩) hasArray

/-- Where classes with an array have distinct keys, it does not matter which key is compared. -/
theorem preorder_eq_of_injective
    (injective : ∀ x y, (array? config w x).isSome → (array? config w y).isSome →
      key x = key y → x = y)
    {visited stack : List String} (hv : ∀ x ∈ visited, (array? config w x).isSome) :
    preorder config w key (visited.map key) stack = preorder config w id visited stack := by
  fun_induction preorder config w id visited stack with
  | case1 => rw [preorder]
  | case2 visited fullName rest fresh ih =>
    have new : key fullName ∉ visited.map key := by
      intro known
      obtain ⟨x, hx, same⟩ := List.mem_map.1 known
      exact fresh.1 (injective x fullName (hv x hx) fresh.2 same ▸ hx)
    rw [preorder, dif_pos ⟨new, fresh.2⟩]
    congr 1
    have hv' : ∀ x ∈ visited ++ [id fullName], (array? config w x).isSome := by
      intro x hx
      rcases List.mem_append.1 hx with hx | hx
      · exact hv x hx
      · rw [List.mem_singleton] at hx
        exact hx ▸ fresh.2
    simpa using ih hv'
  | case3 visited fullName rest skip ih =>
    have skip' : ¬(key fullName ∉ visited.map key ∧ (array? config w fullName).isSome) := by
      rintro ⟨new, hasArray⟩
      exact skip ⟨fun known => new (List.mem_map_of_mem known), hasArray⟩
    rw [preorder, dif_neg skip']
    exact ih hv

end ResponseShape.Inference
