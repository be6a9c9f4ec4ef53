import Wayfinding.Proofs.Number.TotalOrder

/-!
# What a heap pops

* An `Offer` is an entry with the pattern of bits of its priority, whatever it is. `Offer.order`
  compares two of them: their priorities in the total order of patterns, the lower one first, then
  their costs, and then their serial numbers.
* `Offer.order_eq_gt_iff`: the greater one is the entry that comes before the other one.
* `Heap.Step`: a heap is a collection of offers, and what it pops is some greatest one. How it is
  laid out is not said.
* `Shows heap frontier`: the frontier holds the entries of the heap, in their order. Every step of a
  heap is one of its frontier (`Shows.step`), and so is every run (`Shows.run`).
* `pops_in_order`: so a heap pops what a frontier has first, and nothing else can be popped.
-/

namespace Wayfinding

variable {n : Nat}

/-! ## 1. Offers -/

/-- An entry as it is made, with the pattern of its priority. -/
structure Offer (n : Nat) where
  bits : UInt64
  cost : Nat
  serial : Nat
  cell : Fin n
deriving DecidableEq

namespace Offer

variable {a b c : Offer n}

/-- The entry of a frontier, whose priority is the float of the pattern. -/
def entry (offer : Offer n) : Entry n :=
  ⟨Float.ofBits offer.bits, offer.cost, offer.serial, offer.cell⟩

/-- The order of offers. A lower priority makes an offer greater, then a larger cost does, and then
a smaller serial number. -/
def order (a b : Offer n) : Ordering :=
  (compare (totalPlace (normalBits b.bits)) (totalPlace (normalBits a.bits))).then
    ((compare a.cost b.cost).then (compare b.serial a.serial))

/-- Two offers are compared the other way round. -/
theorem order_swap (a b : Offer n) : b.order a = (a.order b).swap := by
  unfold order
  rw [Ordering.swap_then, Ordering.swap_then, ← Std.OrientedCmp.eq_swap, ← Std.OrientedCmp.eq_swap,
    ← Std.OrientedCmp.eq_swap]

/-- **The greater offer is the entry that comes before the other one.** -/
theorem order_eq_gt_iff : a.order b = .gt ↔ a.entry.before b.entry = true := by
  rw [Entry.before_iff]
  unfold order Entry.key
  rw [Prod.Lex.toLex_lt_toLex, Prod.Lex.toLex_lt_toLex, Ordering.then_eq_gt, Ordering.then_eq_gt,
    compare_gt_iff_gt, compare_gt_iff_gt, compare_gt_iff_gt, compare_eq_iff_eq, compare_eq_iff_eq]
  refine or_congr (totalPlace_lt_iff a.bits b.bits) (and_congr ?_ Iff.rfl)
  exact eq_comm.trans (totalPlace_eq_iff a.bits b.bits)

theorem order_eq_lt_iff : a.order b = .lt ↔ b.entry.before a.entry = true := by
  rw [← order_eq_gt_iff, order_swap a b, Ordering.swap_eq_gt]

/-- Offers are equal in the order if they have the same pattern, the same cost and the same serial
number. -/
theorem order_eq_eq_iff : a.order b = .eq ↔
    normalBits a.bits = normalBits b.bits ∧ a.cost = b.cost ∧ a.serial = b.serial := by
  unfold order
  rw [Ordering.then_eq_eq, Ordering.then_eq_eq, compare_eq_iff_eq, compare_eq_iff_eq,
    compare_eq_iff_eq, totalPlace_injective.eq_iff, eq_comm, eq_comm (a := b.serial)]

/-- The order is transitive, also where offers are equal in it. -/
theorem order_trans (hab : a.order b ≠ .lt) (hbc : b.order c ≠ .lt) : a.order c ≠ .lt := by
  rw [ne_eq, order_eq_lt_iff, Entry.before_iff, not_lt] at hab hbc ⊢
  exact hab.trans hbc

/-- Of two offers with different serial numbers one comes before the other. -/
theorem before_or_before (hne : a.serial ≠ b.serial) :
    a.entry.before b.entry = true ∨ b.entry.before a.entry = true := by
  rw [Entry.before_iff, Entry.before_iff]
  exact lt_or_gt_of_ne (Entry.key_ne hne)

end Offer

/-! ## 2. Heaps -/

/-- What is done with a heap or a frontier. -/
inductive Access (n : Nat) where
  | push (offer : Offer n)
  | pop

/-- The offers that are pushed. -/
def Access.offers (accesses : List (Access n)) : List (Offer n) :=
  accesses.filterMap fun
    | .push offer => some offer
    | .pop => none

namespace Heap

/-- One access to a heap, and what it pops. A heap pops one of its greatest offers, and nothing if
it has none. -/
inductive Step (heap : Multiset (Offer n)) :
    Access n → Option (Offer n) → Multiset (Offer n) → Prop where
  | push (offer : Offer n) : Step heap (.push offer) none (offer ::ₘ heap)
  | empty (h : heap = 0) : Step heap .pop none 0
  | pop {offer : Offer n} {others : Multiset (Offer n)} (he : heap = offer ::ₘ others)
      (h : ∀ other ∈ others, other.order offer ≠ .gt) : Step heap .pop (some offer) others

/-- One access after the other. -/
inductive Run : Multiset (Offer n) → List (Access n) → List (Option (Offer n)) →
    Multiset (Offer n) → Prop where
  | nil (heap : Multiset (Offer n)) : Run heap [] [] heap
  | cons {heap heap' heap'' : Multiset (Offer n)} {access : Access n} {accesses : List (Access n)}
      {popped : Option (Offer n)} {others : List (Option (Offer n))}
      (hs : Step heap access popped heap') (hr : Run heap' accesses others heap'') :
      Run heap (access :: accesses) (popped :: others) heap''

end Heap

namespace Frontier

/-- One access to a frontier, and what it pops. -/
def access (frontier : Frontier n) : Access n → Option (Entry n) × Frontier n
  | .push offer => (none, frontier.push offer.entry)
  | .pop => (frontier.head?, frontier.tail)

/-- What is popped by one access after the other. -/
def pops (frontier : Frontier n) : List (Access n) → List (Option (Entry n))
  | [] => []
  | access :: accesses =>
    (frontier.access access).1 :: pops (frontier.access access).2 accesses

end Frontier

/-! ## 3. A heap and its frontier -/

/-- No serial number occurs twice, neither in the heap nor among the offers still to be pushed. -/
def Distinct (heap : Multiset (Offer n)) (accesses : List (Access n)) : Prop :=
  (heap.map Offer.serial + (Access.offers accesses).map Offer.serial).Nodup

/-- The frontier holds the entries of the heap, in their order. -/
structure Shows (heap : Multiset (Offer n)) (frontier : Frontier n) : Prop where
  entries : heap.map Offer.entry = frontier
  sorted : frontier.Sorted

section Shows

variable {heap heap' heap₁ heap₂ : Multiset (Offer n)} {frontier : Frontier n} {access : Access n}
  {accesses accesses' : List (Access n)} {popped popped₁ popped₂ : Option (Offer n)}
  {offer other : Offer n}

namespace Distinct

/-- The offers of a heap are known from their serial numbers. -/
theorem eq_of_serial (h : Distinct heap accesses) (ho : offer ∈ heap) (ho' : other ∈ heap)
    (hs : offer.serial = other.serial) : offer = other :=
  Multiset.inj_on_of_nodup_map (Multiset.nodup_add.mp h).1 _ ho _ ho' hs

/-- What is pushed has a serial number of its own. -/
theorem serial_ne (h : Distinct heap (.push offer :: accesses)) (ho : other ∈ heap) :
    other.serial ≠ offer.serial := by
  have hdisjoint := (Multiset.nodup_add.mp h).2.2
  intro heq
  refine Multiset.disjoint_left.mp hdisjoint (Multiset.mem_map_of_mem Offer.serial ho) ?_
  rw [heq]
  exact List.mem_map_of_mem List.mem_cons_self

theorem step (h : Distinct heap (access :: accesses)) (hs : Heap.Step heap access popped heap') :
    Distinct heap' accesses := by
  unfold Distinct at h ⊢
  cases hs with
  | push offer =>
      rw [Multiset.map_cons, Multiset.cons_add, ← Multiset.add_cons]
      exact h
  | empty h0 =>
      rw [h0] at h
      exact h
  | pop he _ =>
      rw [he, Multiset.map_cons, Multiset.cons_add] at h
      exact (Multiset.nodup_cons.mp h).2

end Distinct

namespace Shows

theorem mem_frontier (h : Shows heap frontier) (ho : offer ∈ heap) : offer.entry ∈ frontier := by
  have hmem := Multiset.mem_map_of_mem Offer.entry ho
  rwa [h.entries] at hmem

theorem exists_offer (h : Shows heap frontier) {entry : Entry n} (he : entry ∈ frontier) :
    ∃ offer ∈ heap, offer.entry = entry := by
  rw [← Multiset.mem_coe, ← h.entries] at he
  exact Multiset.mem_map.mp he

/-- The head of a sorted frontier comes before all its other entries. -/
theorem eq_or_before {first entry : Entry n} {others : Frontier n}
    (h : Shows heap (first :: others)) (he : entry ∈ first :: others) :
    entry = first ∨ first.before entry = true :=
  (List.mem_cons.mp he).imp id fun ho => (List.pairwise_cons.mp h.sorted).1 entry ho

theorem not_before_self (entry : Entry n) : ¬ entry.before entry = true := fun h =>
  lt_irrefl _ (Entry.before_iff.mp h)

/-- A greatest offer is the head of the frontier. -/
theorem exists_eq_cons (h : Shows (offer ::ₘ heap) frontier)
    (hgreatest : ∀ other ∈ heap, other.order offer ≠ .gt) :
    ∃ others, frontier = offer.entry :: others ∧ Shows heap others := by
  have hmem := h.mem_frontier (Multiset.mem_cons_self offer heap)
  obtain ⟨first, others, rfl⟩ := List.exists_cons_of_ne_nil (List.ne_nil_of_mem hmem)
  have hfirst : offer.entry = first := by
    rcases h.eq_or_before hmem with heq | hbefore
    · exact heq
    · obtain ⟨other, hother, rfl⟩ := h.exists_offer List.mem_cons_self
      rcases Multiset.mem_cons.mp hother with rfl | hother
      · rfl
      · exact absurd (Offer.order_eq_gt_iff.mpr hbefore) (hgreatest other hother)
  subst hfirst
  refine ⟨others, rfl, ?_, (List.pairwise_cons.mp h.sorted).2⟩
  have hentries := h.entries
  rw [Multiset.map_cons, ← Multiset.cons_coe] at hentries
  exact (Multiset.cons_inj_right _).mp hentries

/-- **Every access to a heap is one to its frontier.** -/
theorem step (h : Shows heap frontier) (hd : Distinct heap (access :: accesses))
    (hs : Heap.Step heap access popped heap') :
    popped.map Offer.entry = (frontier.access access).1 ∧
      Shows heap' (frontier.access access).2 := by
  cases hs with
  | push offer =>
      refine ⟨rfl, ?_, ?_⟩
      · rw [Multiset.map_cons, h.entries, Multiset.cons_coe]
        exact Multiset.coe_eq_coe.mpr (Frontier.push_perm offer.entry frontier).symm
      · refine h.sorted.push fun entry he => ?_
        obtain ⟨other, hother, rfl⟩ := h.exists_offer he
        exact hd.serial_ne hother
  | empty h0 =>
      have hnil : frontier = [] := by
        rw [← Multiset.coe_eq_zero, ← h.entries, h0, Multiset.map_zero]
      subst hnil
      exact ⟨rfl, rfl, List.Pairwise.nil⟩
  | pop he hgreatest =>
      subst he
      obtain ⟨others, rfl, hothers⟩ := h.exists_eq_cons hgreatest
      exact ⟨rfl, hothers⟩

/-- **Every run of a heap is one of its frontier**, by induction on it. -/
theorem run (h : Shows heap frontier) (hd : Distinct heap accesses)
    {pops : List (Option (Offer n))} (hr : Heap.Run heap accesses pops heap') :
    pops.map (Option.map Offer.entry) = frontier.pops accesses := by
  induction hr generalizing frontier with
  | nil _ => rfl
  | cons hs _ ih =>
      obtain ⟨hpopped, hshows⟩ := h.step hd hs
      rw [List.map_cons, hpopped, ih hshows (hd.step hs)]
      rfl

/-- A heap can always be accessed. -/
theorem exists_step (h : Shows heap frontier) (access : Access n) :
    ∃ popped heap', Heap.Step heap access popped heap' := by
  cases access with
  | push offer => exact ⟨_, _, .push offer⟩
  | pop =>
      cases frontier with
      | nil => exact ⟨_, _, .empty (Multiset.map_eq_zero.mp h.entries)⟩
      | cons first others =>
          obtain ⟨offer, hoffer, hfirst⟩ := h.exists_offer List.mem_cons_self
          obtain ⟨heap', rfl⟩ := Multiset.exists_cons_of_mem hoffer
          refine ⟨_, _, .pop rfl fun other hother hgt => ?_⟩
          have hbefore := Offer.order_eq_gt_iff.mp hgt
          rw [hfirst] at hbefore
          rcases h.eq_or_before (h.mem_frontier (Multiset.mem_cons_of_mem hother)) with heq | hlt
          · rw [heq] at hbefore
            exact not_before_self _ hbefore
          · exact (Entry.before_iff.mp hlt).asymm (Entry.before_iff.mp hbefore)

theorem exists_run (h : Shows heap frontier) (hd : Distinct heap accesses) :
    ∃ pops heap', Heap.Run heap accesses pops heap' := by
  induction accesses generalizing heap frontier with
  | nil => exact ⟨_, _, .nil heap⟩
  | cons access accesses ih =>
      obtain ⟨popped, heap₁, hs⟩ := h.exists_step access
      obtain ⟨pops, heap', hr⟩ := ih (h.step hd hs).2 (hd.step hs)
      exact ⟨_, _, .cons hs hr⟩

end Shows

namespace Heap

/-- What is popped comes before all other offers, and is the only one that does. -/
theorem Step.first (hs : Step heap .pop (some offer) heap') (hd : Distinct heap accesses) :
    offer ∈ heap ∧ ∀ other ∈ heap, other ≠ offer → offer.entry.before other.entry = true := by
  cases hs with
  | pop he hgreatest =>
      subst he
      refine ⟨Multiset.mem_cons_self offer heap', fun other hother hne => ?_⟩
      have hserial : offer.serial ≠ other.serial := fun heq =>
        hne (hd.eq_of_serial hother (Multiset.mem_cons_self offer heap') heq.symm)
      have hrest := (Multiset.mem_cons.mp hother).resolve_left hne
      -- The other offer is no greater one, so it does not come before this one.
      refine (Offer.before_or_before hserial).resolve_right fun hbefore => ?_
      exact hgreatest other hrest (Offer.order_eq_gt_iff.mpr hbefore)

/-- An access has one outcome. -/
theorem Step.unique (hd : Distinct heap accesses) (hs : Step heap access popped₁ heap₁)
    (hs' : Step heap access popped₂ heap₂) : popped₁ = popped₂ ∧ heap₁ = heap₂ := by
  cases hs with
  | push offer =>
      cases hs'
      exact ⟨rfl, rfl⟩
  | empty h0 =>
      cases hs' with
      | empty _ => exact ⟨rfl, rfl⟩
      | pop he _ => exact absurd (h0.symm.trans he) (Multiset.zero_ne_cons)
  | @pop offer _ he hgreatest =>
      cases hs' with
      | empty h0 => exact absurd (h0.symm.trans he) (Multiset.zero_ne_cons)
      | @pop offer' _ he' hgreatest' =>
          obtain ⟨hmem, hfirst⟩ := (Step.pop he hgreatest).first hd
          obtain ⟨hmem', hfirst'⟩ := (Step.pop he' hgreatest').first hd
          have heq : offer = offer' := by
            by_contra hne
            have hbefore := Entry.before_iff.mp (hfirst offer' hmem' (Ne.symm hne))
            exact hbefore.asymm (Entry.before_iff.mp (hfirst' offer hmem hne))
          subst heq
          exact ⟨rfl, (Multiset.cons_inj_right offer).mp (he.symm.trans he')⟩

/-- **A run has one outcome.** -/
theorem Run.unique {pops₁ pops₂ : List (Option (Offer n))} (hd : Distinct heap accesses)
    (hr : Run heap accesses pops₁ heap₁) (hr' : Run heap accesses pops₂ heap₂) :
    pops₁ = pops₂ ∧ heap₁ = heap₂ := by
  induction hr generalizing pops₂ heap₂ with
  | nil _ =>
      cases hr'
      exact ⟨rfl, rfl⟩
  | cons hs _ ih =>
      cases hr' with
      | cons hs' hr' =>
          obtain ⟨rfl, rfl⟩ := hs.unique hd hs'
          obtain ⟨rfl, rfl⟩ := ih (hd.step hs) hr'
          exact ⟨rfl, rfl⟩

/-- The serial numbers in a heap stay distinct. -/
theorem Run.distinct {pops : List (Option (Offer n))} (hd : Distinct heap accesses)
    (hr : Run heap accesses pops heap') : Distinct heap' [] := by
  induction hr with
  | nil _ => exact hd
  | cons hs _ ih => exact ih (hd.step hs)

end Heap

end Shows

/-! ## 4. Other orders of insertion -/

/-- The same accesses, but for the order of offers that are pushed one after the other. -/
inductive Reordered : List (Access n) → List (Access n) → Prop where
  | refl (accesses : List (Access n)) : Reordered accesses accesses
  | swap (a b : Offer n) (accesses : List (Access n)) :
      Reordered (.push a :: .push b :: accesses) (.push b :: .push a :: accesses)
  | cons (access : Access n) {accesses accesses' : List (Access n)}
      (h : Reordered accesses accesses') : Reordered (access :: accesses) (access :: accesses')
  | trans {accesses accesses' accesses'' : List (Access n)} (h : Reordered accesses accesses')
      (h' : Reordered accesses' accesses'') : Reordered accesses accesses''

theorem Reordered.symm {accesses accesses' : List (Access n)} (h : Reordered accesses accesses') :
    Reordered accesses' accesses := by
  induction h with
  | refl accesses => exact .refl accesses
  | swap a b accesses => exact .swap b a accesses
  | cons access _ ih => exact .cons access ih
  | trans _ _ ih ih' => exact .trans ih' ih

/-- A heap does not know in which order offers were pushed. -/
theorem Reordered.run {accesses accesses' : List (Access n)} (h : Reordered accesses accesses')
    {heap heap' : Multiset (Offer n)} {pops : List (Option (Offer n))}
    (hr : Heap.Run heap accesses pops heap') : Heap.Run heap accesses' pops heap' := by
  induction h generalizing heap pops with
  | refl _ => exact hr
  | swap a b accesses =>
      cases hr with
      | cons hs hr =>
          cases hs with
          | push _ =>
              cases hr with
              | cons hs hr =>
                  cases hs with
                  | push _ =>
                      refine .cons (.push b) (.cons (.push a) ?_)
                      rwa [Multiset.cons_swap]
  | cons access _ ih =>
      cases hr with
      | cons hs hr => exact .cons hs (ih hr)
  | trans _ _ ih ih' => exact ih' (ih hr)

/-! ## 5. Pops -/

/-- **A heap of offers pops in one order.** The order of offers is total and transitive, and only
those of the same priority, cost and serial number are equal in it. An offer is greater than another
one if its entry comes before the other one's: by the lower priority, where the zeros are equal and
what is no number comes last and is equal, then by the larger cost, then by the smaller serial
number. Whatever is pushed and popped, from an empty heap on and with a serial number of its own for
each offer:

* the accesses can be made, and a heap pops exactly what a frontier has first, whichever greatest
  offer it takes;
* what is popped comes before all other offers of the heap;
* nothing else is popped if offers are pushed in another order between two pops. -/
theorem pops_in_order :
    (∀ a b : Offer n, b.order a = (a.order b).swap) ∧
    (∀ a b : Offer n, a.order b = .eq ↔
      normalBits a.bits = normalBits b.bits ∧ a.cost = b.cost ∧ a.serial = b.serial) ∧
    (∀ a b c : Offer n, a.order b ≠ .lt → b.order c ≠ .lt → a.order c ≠ .lt) ∧
    (∀ a b : Offer n, a.order b = .gt ↔ a.entry.before b.entry = true) ∧
    ∀ accesses : List (Access n), ((Access.offers accesses).map Offer.serial).Nodup →
      (∃ pops heap, Heap.Run 0 accesses pops heap) ∧
      ∀ pops heap, Heap.Run 0 accesses pops heap →
        pops.map (Option.map Offer.entry) = Frontier.pops [] accesses ∧
        (∀ offer heap', Heap.Step heap .pop (some offer) heap' →
          offer ∈ heap ∧ ∀ other ∈ heap, other ≠ offer → offer.entry.before other.entry = true) ∧
        ∀ accesses' pops' heap', Reordered accesses accesses' →
          Heap.Run 0 accesses' pops' heap' → pops' = pops ∧ heap' = heap := by
  refine ⟨Offer.order_swap, fun _ _ => Offer.order_eq_eq_iff, fun _ _ _ => Offer.order_trans,
    fun _ _ => Offer.order_eq_gt_iff, fun accesses hnodup => ?_⟩
  have hd : Distinct 0 accesses := by
    unfold Distinct
    rwa [Multiset.map_zero, zero_add, Multiset.coe_nodup]
  have hshows : Shows (0 : Multiset (Offer n)) [] := ⟨rfl, List.Pairwise.nil⟩
  refine ⟨hshows.exists_run hd, fun pops heap hr => ⟨hshows.run hd hr, ?_, ?_⟩⟩
  · intro offer heap' hs
    exact hs.first (hr.distinct hd)
  · intro accesses' pops' heap' hreordered hr'
    exact (hreordered.symm.run hr').unique hd hr

/-- What is no number, of either sign, both zeros and both infinities, pushed and popped. -/
def signs : List (Access 1) :=
  [.push ⟨0xfff8000000000001, 7, 0, 0⟩, .push ⟨0x8000000000000000, 1, 1, 0⟩, .push ⟨0, 1, 2, 0⟩,
    .pop, .push ⟨0xfff0000000000000, 0, 3, 0⟩, .pop, .push ⟨0x7ff0000000000000, 9, 4, 0⟩,
    .push ⟨0x7ff8000000000000, 8, 5, 0⟩, .pop, .pop, .pop, .pop, .pop]

/-- The zeros are popped by their serial numbers, and what is no number last, by its cost. -/
theorem pops_in_order_signs :
    ((Access.offers signs).map Offer.serial).Nodup ∧
      ∀ pops heap, Heap.Run 0 signs pops heap → pops.map (Option.map Offer.serial) =
        [none, none, none, some 1, none, some 3, none, none, some 2, some 4, some 5, some 0,
          none] := by
  have hnodup : ((Access.offers signs).map Offer.serial).Nodup := by decide
  refine ⟨hnodup, fun pops heap hr => ?_⟩
  obtain ⟨-, hpops⟩ := pops_in_order.2.2.2.2 signs hnodup
  have hserials := congrArg (List.map (Option.map Entry.serial)) (hpops pops heap hr).1
  rw [List.map_map, Option.map_comp_map] at hserials
  exact hserials.trans (by decide)

end Wayfinding
