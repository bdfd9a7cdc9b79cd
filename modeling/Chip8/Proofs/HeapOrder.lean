import Chip8.EventHeap

/-!
# The order of heaps

Where an event rises or sinks, the heap is out of order at its position only, and the events below
that position are in order with the one above it. So it is again after each step, one position
further up or down, and at the end the whole heap is in order. Then no event comes before the root,
and taking the root as long as it is due yields all that is due, in order.

## Main definitions

* `EventHeap.IsHeap`: no event comes before the one above
* `EventHeap.Rising`, `EventHeap.Sinking`: the same but for one position

## Main statements

* `EventHeap.Rising.swap`, `EventHeap.Sinking.swap`: a step keeps the rest in order
* `EventHeap.isHeap_add`, `EventHeap.isHeap_dropRoot`: heaps stay in order
* `EventHeap.IsHeap.root_first`: no event comes before the root
* `EventHeap.clock_le_of_mem_takeDueFrom`, `EventHeap.lt_clock_of_mem_takeDueFrom`: what is taken is
  due, and what is left is not
* `EventHeap.takeDueFrom_ascending`: what is taken is in order
-/

namespace Chip8

namespace EventHeap

variable {α : Type} {n i : Nat} {v : Vector (Event α) n}

/-- No event comes before the one above. -/
def IsHeap (v : Vector (Event α) n) : Prop :=
  ∀ k (hk : k < n), 0 < k → ¬v[k].before v[(k - 1) / 2]

/-- Only the event at the position may come before the one above, and no event below it comes before
that one. -/
structure Rising (v : Vector (Event α) n) (i : Nat) (hi : i < n) : Prop where
  others : ∀ k (hk : k < n), 0 < k → k ≠ i → ¬v[k].before v[(k - 1) / 2]
  below : 0 < i → ∀ k (hk : k < n), 0 < k → (k - 1) / 2 = i → ¬v[k].before v[(i - 1) / 2]

/-- Only the event at the position may be out of order with those around it, and those are in order
themselves. -/
structure Sinking (v : Vector (Event α) n) (i : Nat) (hi : i < n) : Prop where
  others : ∀ k (hk : k < n), 0 < k → k ≠ i → (k - 1) / 2 ≠ i → ¬v[k].before v[(k - 1) / 2]
  below : 0 < i → ∀ k (hk : k < n), 0 < k → (k - 1) / 2 = i → ¬v[k].before v[(i - 1) / 2]

/-! ## Rising -/

theorem Rising.isHeap {hi : i < n} (h : Rising v i hi)
    (hdone : 0 < i → ¬v[i].before v[(i - 1) / 2]) : IsHeap v := by
  intro k hk hpos
  by_cases hki : k = i
  · subst hki
    exact hdone hpos
  · exact h.others k hk hpos hki

/-- One step up. -/
theorem Rising.swap {hi : i < n} (h : Rising v i hi) (hi0 : 0 < i) {p : Nat} (hp : p < n)
    (hip : (i - 1) / 2 = p) (hbefore : v[i].before v[p]) : Rising (v.swap i p) p hp where
  others k hk hk0 hkp := by
    -- Besides the two events that were exchanged, those below either of them have a new event
    -- above.
    by_cases hki : k = i
    · subst hki
      simp only [hip, Vector.getElem_swap_left, Vector.getElem_swap_right]
      exact Event.before_asymm hbefore
    · rw [Vector.getElem_swap_of_ne hki hkp]
      have hk' := h.others k hk hk0 hki
      by_cases hchild : (k - 1) / 2 = i
      · have hbelow := h.below hi0 k hk hk0 hchild
        simp only [hip] at hbelow
        simp only [hchild, Vector.getElem_swap_left]
        exact hbelow
      · by_cases hsibling : (k - 1) / 2 = p
        · simp only [hsibling, Vector.getElem_swap_right] at hk' ⊢
          exact Event.not_before_trans (Event.before_asymm hbefore) hk'
        · rw [Vector.getElem_swap_of_ne hchild hsibling]
          exact hk'
  below hp0 k hk hk0 hkp := by
    have habove := h.others p hp hp0 (by omega)
    have hstays : (v.swap i p)[(p - 1) / 2] = v[(p - 1) / 2] :=
      Vector.getElem_swap_of_ne (by omega) (by omega)
    rw [hstays]
    by_cases hki : k = i
    · subst hki
      rw [Vector.getElem_swap_left]
      exact habove
    · have hk' := h.others k hk hk0 hki
      rw [Vector.getElem_swap_of_ne hki (by omega)]
      simp only [hkp] at hk'
      exact Event.not_before_trans habove hk'

theorem Rising.rise {hi : i < n} (h : Rising v i hi) : IsHeap (rise v i hi) := by
  fun_induction EventHeap.rise v i hi with
  | case1 v i hi hpos hbefore ih => exact ih (h.swap hpos (parent_lt hi) rfl hbefore)
  | case2 v i hi hpos hbefore => exact h.isHeap fun _ => hbefore
  | case3 v i hi hroot => exact h.isHeap fun hpos => absurd hpos hroot

/-! ## Sinking -/

/-- No event below a position comes before the first of them. -/
theorem not_before_firstChild (h : 2 * i + 1 < n) (hfirst : firstChild v i h < n) {k : Nat}
    (hk : k < n) (hk0 : 0 < k) (hki : (k - 1) / 2 = i) : ¬v[k].before v[firstChild v i h] := by
  have hcases : k = 2 * i + 1 ∨ k = 2 * i + 2 := by omega
  simp only [firstChild]
  split
  next hright =>
    split
    next hbefore =>
      rcases hcases with rfl | rfl
      · exact Event.before_irrefl _
      · exact Event.before_asymm hbefore
    next hbefore =>
      rcases hcases with rfl | rfl
      · exact hbefore
      · exact Event.before_irrefl _
  next hright =>
    obtain rfl : k = 2 * i + 1 := by omega
    exact Event.before_irrefl _

/-- Where nothing is below, what sinks may as well rise. -/
theorem Sinking.rising {hi : i < n} (h : Sinking v i hi) (hleaf : ¬2 * i + 1 < n) :
    Rising v i hi where
  others k hk hk0 hki := h.others k hk hk0 hki (by omega)
  below := h.below

/-- One step down, along the child that comes first. -/
theorem Sinking.swap {hi : i < n} (h : Sinking v i hi) {c : Nat} (hc : c < n) (hc0 : 0 < c)
    (hci : (c - 1) / 2 = i)
    (hfirst : ∀ k (hk : k < n), 0 < k → (k - 1) / 2 = i → ¬v[k].before v[c]) :
    Sinking (v.swap i c) c hc where
  others k hk hk0 hkc hchild := by
    -- The child that went up has the old parent of `i` above, and its sibling has the child above.
    by_cases hki : k = i
    · subst hki
      rw [Vector.getElem_swap_left, Vector.getElem_swap_of_ne (by omega) hchild]
      exact h.below hk0 c hc hc0 hci
    · rw [Vector.getElem_swap_of_ne hki hkc]
      by_cases hsibling : (k - 1) / 2 = i
      · simp only [hsibling, Vector.getElem_swap_left]
        exact hfirst k hk hk0 hsibling
      · rw [Vector.getElem_swap_of_ne hsibling hchild]
        exact h.others k hk hk0 hki hsibling
  below _ k hk hk0 hkc := by
    have hbelow := h.others k hk hk0 (by omega) (by omega)
    simp only [hci, hkc, Vector.getElem_swap_left] at hbelow ⊢
    rw [Vector.getElem_swap_of_ne (by omega) (by omega)]
    exact hbelow

theorem Sinking.sink {hi : i < n} (h : Sinking v i hi) : IsHeap (sink v i hi) := by
  fun_induction EventHeap.sink v i hi with
  | case1 v i hi hleft hchild ih =>
    exact ih (h.swap hchild.2.1 (by omega) hchild.2.2
      fun k hk => not_before_firstChild hleft hchild.2.1 hk)
  | case2 v i hi hleaf => exact (h.rising hleaf).rise

/-! ## Adding and taking -/

theorem isHeap_empty : IsHeap (empty : EventHeap α).cells :=
  fun _ hk => absurd hk (Nat.not_lt_zero _)

theorem isHeap_add {h : EventHeap α} (hheap : IsHeap h.cells) (e : Event α) :
    IsHeap (h.add e).cells := by
  have hrising : Rising (h.cells.push e) h.size (by omega) :=
    { others := fun k hk hk0 hlast => by
        rw [Vector.getElem_push_lt (by omega), Vector.getElem_push_lt (by omega)]
        exact hheap k (by omega) hk0
      below := fun _ k hk _ hbelow => by omega }
  exact hrising.rise

theorem isHeap_dropRoot {v : Vector (Event α) (n + 1)} (hheap : IsHeap v) :
    IsHeap (dropRoot v) := by
  rw [dropRoot]
  split
  next h =>
    have hsinking : Sinking (v.swap 0 n).pop 0 h :=
      { others := fun k hk hk0 hroot hchild => by
          rw [Vector.getElem_pop, Vector.getElem_pop,
            Vector.getElem_swap_of_ne (by omega) (by omega),
            Vector.getElem_swap_of_ne hchild (by omega)]
          exact hheap k (by omega) hk0
        below := fun hroot => absurd hroot (Nat.lt_irrefl 0) }
    exact hsinking.sink
  next h =>
    intro k hk
    omega

/-- **The root comes first.** -/
theorem IsHeap.root_first {v : Vector (Event α) (n + 1)} (hheap : IsHeap v) (k : Nat)
    (hk : k < n + 1) :
    ¬v[k].before (root v) := by
  induction k using Nat.strongRecOn with
  | ind k ih =>
    by_cases hk0 : k = 0
    · subst hk0
      exact Event.before_irrefl _
    · exact Event.not_before_trans (ih ((k - 1) / 2) (by omega) (by omega)) (hheap k hk (by omega))

theorem IsHeap.root_first_of_mem {v : Vector (Event α) (n + 1)} (hheap : IsHeap v) {e : Event α}
    (he : e ∈ v.toList) : ¬e.before (root v) := by
  obtain ⟨k, hk, rfl⟩ := Vector.mem_iff_getElem.1 (Vector.mem_toList_iff.1 he)
  exact hheap.root_first k hk

/-! ## Taking what is due -/

variable {clock : Int}

theorem isHeap_takeDueFrom (hheap : IsHeap v) : IsHeap (takeDueFrom clock v).2.cells := by
  induction n with
  | zero => exact hheap
  | succ n ih =>
    by_cases hdue : (root v).clock ≤ clock
    · rw [takeDueFrom_of_due hdue]
      exact ih (isHeap_dropRoot hheap)
    · rw [takeDueFrom_of_late hdue]
      exact hheap

/-- What is taken is due. -/
theorem clock_le_of_mem_takeDueFrom {e : Event α} (he : e ∈ (takeDueFrom clock v).1) :
    e.clock ≤ clock := by
  induction n with
  | zero => cases he
  | succ n ih =>
    by_cases hdue : (root v).clock ≤ clock
    · rw [takeDueFrom_of_due hdue] at he
      rcases List.mem_cons.1 he with rfl | he
      · exact hdue
      · exact ih he
    · rw [takeDueFrom_of_late hdue] at he
      cases he

/-- What is left is not due. -/
theorem lt_clock_of_mem_takeDueFrom (hheap : IsHeap v) {e : Event α}
    (he : e ∈ (takeDueFrom clock v).2.events) :
    clock < e.clock := by
  induction n with
  | zero =>
    obtain rfl : v = #v[] := Vector.eq_empty
    cases he
  | succ n ih =>
    by_cases hdue : (root v).clock ≤ clock
    · rw [takeDueFrom_of_due hdue] at he
      exact ih (isHeap_dropRoot hheap) he
    · rw [takeDueFrom_of_late hdue] at he
      have hfirst := hheap.root_first_of_mem he
      rw [Event.before_iff] at hfirst
      omega

theorem mem_of_mem_takeDueFrom {e : Event α} (he : e ∈ (takeDueFrom clock v).1) : e ∈ v.toList :=
  (takeDueFrom_perm clock v).mem_iff.1 (List.mem_append_left _ he)

/-- What is taken is in order. -/
theorem takeDueFrom_ascending (hheap : IsHeap v) :
    (takeDueFrom clock v).1.Pairwise fun e f => ¬f.before e := by
  induction n with
  | zero => exact List.Pairwise.nil
  | succ n ih =>
    by_cases hdue : (root v).clock ≤ clock
    · rw [takeDueFrom_of_due hdue]
      refine List.pairwise_cons.2 ⟨fun f hf => ?_, ih (isHeap_dropRoot hheap)⟩
      have hmem : f ∈ v.toList :=
        (dropRoot_perm v).mem_iff.1 (List.mem_cons_of_mem _ (mem_of_mem_takeDueFrom hf))
      exact hheap.root_first_of_mem hmem
    · rw [takeDueFrom_of_late hdue]
      exact List.Pairwise.nil

end EventHeap

end Chip8
