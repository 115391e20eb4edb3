import Mathlib
import Clob.Book.Depth
import Clob.Proofs.Slab.Walk
/-!
# Depth levels are the runs of equal price

The priority walk of a book, cut into maximal runs of neighbouring leaves whose lot prices
convert to the same number (`Orderbook.priceRuns`), gives the depth levels: one level for each of
the first `depth` runs, with the run's price, the lot price of its first leaf and the lots of all
its leaves. The aggregation compares a leaf with the first leaf of the open level rather than
with its neighbour; the two agree because numeric equality of binary64 values is symmetric and
transitive.

The aggregation reads one leaf past the last run it keeps, to see that a new run starts, so a
fault of the walk is reported only when the walk ends before a run after the last kept one
begins.
-/

namespace Clob

namespace Binary64

theorem sameValue_comm (x y : Binary64) : x.sameValue y = y.sameValue x := by
  simp only [sameValue]
  cases x.isNaN <;> cases y.isNaN <;> simp [eq_comm]

theorem sameValue_trans {x y z : Binary64} (hxy : x.sameValue y) (hyz : y.sameValue z) :
    x.sameValue z := by
  simp only [sameValue, Bool.and_eq_true, Bool.not_eq_true', beq_iff_eq] at *
  exact ⟨⟨hxy.1.1, hyz.1.2⟩, hxy.2.trans hyz.2⟩

end Binary64

namespace Orderbook

def samePrice (price : Nat → Binary64) (x y : Leaf) : Bool :=
  (price x.priceLots).sameValue (price y.priceLots)

def openLevel (price : Nat → Binary64) : List Leaf → OpenLevel
  | [] => ⟨.zero, 0, 0⟩
  | l :: rest => ⟨price l.priceLots, l.priceLots, ((l :: rest).map Leaf.quantity).sum⟩

def priorityWalk (b : Orderbook) : Walk := b.slab.walk b.side.priorityDescending

/-- The leaves of the priority walk, cut into maximal runs of neighbours whose lot prices
convert to the same number. -/
def priceRuns (b : Orderbook) : List (List Leaf) :=
  b.priorityWalk.leaves.splitBy (samePrice b.market.price)

def runLevel (b : Orderbook) : List Leaf → BookLevel
  | [] => ⟨.zero, b.market.baseSize 0, 0, 0⟩
  | l :: rest =>
      let lots := ((l :: rest).map Leaf.quantity).sum
      ⟨b.market.price l.priceLots, b.market.baseSize lots, l.priceLots, lots⟩

section Runs

variable {price : Nat → Binary64}

theorem samePrice_comm (x y : Leaf) : samePrice price x y = samePrice price y x :=
  Binary64.sameValue_comm _ _

theorem samePrice_trans {x y z : Leaf} (hxy : samePrice price x y) (hyz : samePrice price y z) :
    samePrice price x z :=
  Binary64.sameValue_trans hxy hyz

theorem samePrice_head_of_isChain {a : Leaf} {xs : List Leaf}
    (h : (a :: xs).IsChain fun x y => samePrice price x y) : ∀ x ∈ xs, samePrice price a x := by
  induction xs generalizing a with
  | nil => simp
  | cons b xs ih =>
      have hab := List.IsChain.rel h
      intro x hx
      rcases List.mem_cons.mp hx with rfl | hx
      · exact hab
      · exact samePrice_trans hab (ih (List.isChain_cons_cons.mp h).2 x hx)

theorem samePrice_head_of_getLast {a : Leaf} {xs : List Leaf} {y : Leaf}
    (h : (a :: xs).IsChain fun x y => samePrice price x y)
    (hy : samePrice price ((a :: xs).getLast (List.cons_ne_nil a xs)) y = false) :
    samePrice price a y = false := by
  by_cases hxs : xs = []
  · subst hxs
    exact hy
  · rw [List.getLast_cons hxs] at hy
    have hz := samePrice_head_of_isChain h _ (List.getLast_mem hxs)
    cases hay : samePrice price a y
    · rfl
    · rw [samePrice_comm] at hz
      rw [samePrice_trans hz hay] at hy
      exact absurd hy (by decide)

def HeadsApart (price : Nat → Binary64) (r r' : List Leaf) : Prop :=
  ∀ a ∈ r.head?, ∀ a' ∈ r'.head?, samePrice price a a' = false

theorem splitBy_samePrice (leaves : List Leaf) :
    (leaves.splitBy (samePrice price)).flatten = leaves ∧ [] ∉ leaves.splitBy (samePrice price) ∧
      (∀ r ∈ leaves.splitBy (samePrice price), r.IsChain fun x y => samePrice price x y) ∧
      (leaves.splitBy (samePrice price)).IsChain (HeadsApart price) := by
  refine ⟨List.flatten_splitBy _ _, List.nil_notMem_splitBy _ _,
    fun _ hr => List.isChain_of_mem_splitBy hr, ?_⟩
  refine (List.isChain_getLast_head_splitBy _ leaves).imp_of_mem_imp ?_
  rintro r r' hr - ⟨hne, hne', hlast⟩ a ha a' ha'
  obtain ⟨x, xs, rfl⟩ := List.exists_cons_of_ne_nil hne
  obtain ⟨y, ys, rfl⟩ := List.exists_cons_of_ne_nil hne'
  simp only [List.head?_cons, Option.mem_def, Option.some.injEq] at ha ha'
  subst ha ha'
  exact samePrice_head_of_getLast (List.isChain_of_mem_splitBy hr) hlast

end Runs

section Gather

variable {price : Nat → Binary64} {depth : Nat}

theorem gather_merge (last : OpenLevel) (older : List OpenLevel) {xs : List Leaf}
    (rest : List Leaf) (hxs : ∀ x ∈ xs, last.price.sameValue (price x.priceLots)) :
    gather price depth (xs ++ rest) (last :: older) =
      gather price depth rest
        ({ last with sizeLots := last.sizeLots + (xs.map Leaf.quantity).sum } :: older) := by
  induction xs generalizing last with
  | nil => simp
  | cons x xs ih =>
      rw [List.cons_append, gather]
      simp only [hxs x List.mem_cons_self, if_true]
      rw [ih]
      · simp [Nat.add_assoc]
      · exact fun y hy => hxs y (List.mem_cons_of_mem x hy)

def Fresh (price : Nat → Binary64) (acc : List OpenLevel) (run : List Leaf) : Prop :=
  ∀ lv ∈ acc.head?, ∀ a ∈ run.head?, lv.price.sameValue (price a.priceLots) = false

theorem Fresh.nil (run : List Leaf) : Fresh price [] run := by
  simp [Fresh]

theorem Fresh.of_headsApart {a : Leaf} {xs run : List Leaf} {acc : List OpenLevel}
    (h : HeadsApart price (a :: xs) run) : Fresh price (openLevel price (a :: xs) :: acc) run := by
  intro lv hlv a' ha'
  simp only [List.head?_cons, Option.mem_def, Option.some.injEq] at hlv
  subst hlv
  exact h a rfl a' ha'

theorem gather_run {a : Leaf} {xs : List Leaf} (rest : List Leaf) {acc : List OpenLevel}
    (hrun : (a :: xs).IsChain fun x y => samePrice price x y) (hnew : Fresh price acc (a :: xs)) :
    gather price depth (a :: xs ++ rest) acc =
      if acc.length = depth then (acc, true)
      else gather price depth rest (openLevel price (a :: xs) :: acc) := by
  have hopen :
      gather price depth (xs ++ rest) (⟨price a.priceLots, a.priceLots, a.quantity⟩ :: acc) =
        gather price depth rest (openLevel price (a :: xs) :: acc) := by
    have hjoin : ∀ x ∈ xs, (price a.priceLots).sameValue (price x.priceLots) :=
      samePrice_head_of_isChain hrun
    rw [gather_merge ⟨price a.priceLots, a.priceLots, a.quantity⟩ acc rest hjoin]
    simp only [openLevel, List.map_cons, List.sum_cons]
  cases acc with
  | nil =>
      by_cases hd : depth = 0
      · simp [gather, hd]
      · simp [gather, hd, hopen, Ne.symm hd]
  | cons last older =>
      simp [gather, hnew last rfl a rfl, hopen]

/-- Over whole runs the aggregation opens one level for each, until `depth` levels are open; it
stops early exactly when a run is left over. -/
theorem gather_runs {rs : List (List Leaf)} {acc : List OpenLevel} (hacc : acc.length ≤ depth)
    (hne : [] ∉ rs) (hchain : ∀ r ∈ rs, r.IsChain fun x y => samePrice price x y)
    (hheads : rs.IsChain (HeadsApart price)) (hnew : ∀ r ∈ rs.head?, Fresh price acc r) :
    gather price depth rs.flatten acc =
      (((rs.take (depth - acc.length)).map (openLevel price)).reverse ++ acc,
        decide (depth < acc.length + rs.length)) := by
  induction rs generalizing acc with
  | nil =>
      simp only [List.flatten_nil, gather, List.take_nil, List.map_nil, List.reverse_nil,
        List.nil_append, List.length_nil, Nat.add_zero]
      simp only [Prod.mk.injEq, true_and]
      exact (decide_eq_false (Nat.not_lt.mpr hacc)).symm
  | cons r rs ih =>
      obtain ⟨a, xs, rfl⟩ := List.exists_cons_of_ne_nil fun h => hne (h ▸ List.mem_cons_self)
      rw [List.flatten_cons, gather_run _ (hchain _ List.mem_cons_self) (hnew _ rfl)]
      by_cases hfull : acc.length = depth
      · rw [if_pos hfull]
        simp [hfull]
      · rw [if_neg hfull]
        obtain ⟨k, hk⟩ : ∃ k, depth - acc.length = k + 1 := ⟨depth - acc.length - 1, by omega⟩
        have hk' : depth - (openLevel price (a :: xs) :: acc).length = k := by simp; omega
        have hheads' := List.isChain_cons.mp hheads
        rw [@ih (openLevel price (a :: xs) :: acc) (by simp; omega)
          (fun h => hne (List.mem_cons_of_mem _ h))
          (fun r' hr' => hchain r' (List.mem_cons_of_mem _ hr')) hheads'.2
          (fun r' hr' => Fresh.of_headsApart (hheads'.1 r' hr')), hk', hk]
        simp only [List.take_succ_cons, List.map_cons, List.reverse_cons, List.append_assoc,
          List.length_cons, List.singleton_append, Prod.mk.injEq, true_and]
        simp only [Nat.add_assoc, Nat.add_comm 1 rs.length]

theorem gather_splitBy (leaves : List Leaf) :
    gather price depth leaves [] =
      ((((leaves.splitBy (samePrice price)).take depth).map (openLevel price)).reverse,
        decide (depth < (leaves.splitBy (samePrice price)).length)) := by
  obtain ⟨hflat, hne, hchain, hheads⟩ := @splitBy_samePrice price leaves
  conv_lhs => rw [← hflat]
  simpa using @gather_runs price depth _ [] (Nat.zero_le depth) hne hchain hheads
    fun r _ => Fresh.nil r

end Gather

section Depth

variable (b : Orderbook)

theorem close_comp_openLevel :
    (fun lv : OpenLevel => (⟨lv.price, b.market.baseSize lv.sizeLots, lv.priceLots, lv.sizeLots⟩ :
      BookLevel)) ∘ openLevel b.market.price = b.runLevel := by
  funext r
  cases r <;> rfl

theorem runLevel_sizeLots (r : List Leaf) :
    (b.runLevel r).sizeLots = (r.map Leaf.quantity).sum := by
  cases r <;> rfl

theorem depth_of_nonneg {d : Int} (hd : 0 ≤ d) :
    b.depth d =
      match b.priorityWalk.fault with
      | some f =>
          if d.toNat < b.priceRuns.length then .ok ((b.priceRuns.take d.toNat).map b.runLevel)
          else .error f
      | none => .ok ((b.priceRuns.take d.toNat).map b.runLevel) := by
  simp only [depth, if_neg (Int.not_lt.mpr hd), gather_splitBy, List.reverse_reverse,
    List.map_map, close_comp_openLevel, priorityWalk, priceRuns, decide_eq_true_eq]
  rfl

theorem depth_eq_ok_iff {d : Int} {levels : List BookLevel} :
    b.depth d = .ok levels ↔
      0 ≤ d ∧ (b.priorityWalk.fault = none ∨ d.toNat < b.priceRuns.length) ∧
        levels = (b.priceRuns.take d.toNat).map b.runLevel := by
  by_cases hd : 0 ≤ d
  · rw [depth_of_nonneg b hd]
    cases hf : b.priorityWalk.fault with
    | none => simp [hd, eq_comm]
    | some f =>
        by_cases hlt : d.toNat < b.priceRuns.length <;> simp [hd, hlt, eq_comm]
  · have hneg : b.depth d = .error (.depthNegative d) := by simp [depth, Int.not_le.mp hd]
    simp [hneg, hd]

theorem depth_eq_error_iff {d : Int} (hd : 0 ≤ d) {f : Fault} :
    b.depth d = .error f ↔ b.priorityWalk.fault = some f ∧ b.priceRuns.length ≤ d.toNat := by
  rw [depth_of_nonneg b hd]
  cases hf : b.priorityWalk.fault with
  | none => simp
  | some g =>
      by_cases hlt : d.toNat < b.priceRuns.length <;> simp [hlt, Nat.le_of_not_lt]

/-- The depth levels of a book are its runs of equal price. A negative depth is refused before
anything else. Otherwise there is one level for each of the first `depth` runs of the priority
walk, with the run's price, the lot price of its first leaf and the lots of all its leaves; the
walk's fault is reported exactly when the walk ends before a run after those begins. So a smaller
depth gives a prefix of the levels, and once every run has a level the levels hold all the lots
of the walk. -/
theorem depth_levels_are_price_runs (b : Orderbook) :
    (∀ d : Int, d < 0 → b.depth d = .error (.depthNegative d)) ∧
    (∀ d : Int, 0 ≤ d → (b.priorityWalk.fault = none ∨ d.toNat < b.priceRuns.length) →
      b.depth d = .ok ((b.priceRuns.take d.toNat).map b.runLevel)) ∧
    (∀ (d : Int) (f : Fault), 0 ≤ d →
      (b.depth d = .error f ↔ b.priorityWalk.fault = some f ∧ b.priceRuns.length ≤ d.toNat)) ∧
    (∀ (d : Int) (f : Fault), b.depth d = .error f → (f.kind = .value ↔ d < 0)) ∧
    (∀ (d d' : Int) (levels : List BookLevel), 0 ≤ d → d ≤ d' → b.depth d' = .ok levels →
      b.depth d = .ok (levels.take d.toNat)) ∧
    (∀ (d : Int) (levels : List BookLevel), b.depth d = .ok levels →
      b.priceRuns.length ≤ d.toNat →
      (levels.map BookLevel.sizeLots).sum = (b.priorityWalk.leaves.map Leaf.quantity).sum) := by
  refine ⟨fun d hd => by simp [depth, hd],
    fun d hd hcond => (depth_eq_ok_iff b).mpr ⟨hd, hcond, rfl⟩,
    fun d f hd => depth_eq_error_iff b hd, fun d f h => ?_,
    fun d d' levels hd hdd' h => ?_, fun d levels h hlen => ?_⟩
  · by_cases hd : d < 0
    · have hneg : b.depth d = .error (.depthNegative d) := by simp [depth, hd]
      rw [hneg, Except.error.injEq] at h
      subst h
      exact ⟨fun _ => hd, fun _ => rfl⟩
    · have hwalk := ((depth_eq_error_iff b (Int.not_lt.mp hd)).mp h).1
      rw [Slab.walk_fault_kind hwalk]
      exact ⟨fun hv => absurd hv (by decide), fun hlt => absurd hlt hd⟩
  · obtain ⟨-, hcond, rfl⟩ := (depth_eq_ok_iff b).mp h
    have htake : d.toNat ≤ d'.toNat := by omega
    refine (depth_eq_ok_iff b).mpr ⟨hd, hcond.imp id fun hlt => by omega, ?_⟩
    rw [← List.map_take, List.take_take, Nat.min_eq_left htake]
  · obtain ⟨-, -, rfl⟩ := (depth_eq_ok_iff b).mp h
    have hsize : BookLevel.sizeLots ∘ b.runLevel = List.sum ∘ List.map Leaf.quantity :=
      funext (runLevel_sizeLots b)
    calc ((b.priceRuns.take d.toNat |>.map b.runLevel).map BookLevel.sizeLots).sum
        = ((b.priceRuns.map (List.map Leaf.quantity)).map List.sum).sum := by
          rw [List.take_of_length_le hlen, List.map_map, hsize, List.map_map]
      _ = (b.priceRuns.flatten.map Leaf.quantity).sum := by
          rw [← List.sum_flatten, List.map_flatten]
      _ = (b.priorityWalk.leaves.map Leaf.quantity).sum := by
          rw [priceRuns, List.flatten_splitBy]

theorem twoLeaf_depth_one :
    (0 : Int) ≤ 1 ∧
      (mk Slab.twoLeaf .sell (.ofSizes 1 1 0 0)).priorityWalk.fault =
        none ∧
      (mk Slab.twoLeaf .sell (.ofSizes 1 1 0 0)).depth 1 =
        .ok (((mk Slab.twoLeaf .sell (.ofSizes 1 1 0 0)).priceRuns.take
          1).map (mk Slab.twoLeaf .sell (.ofSizes 1 1 0 0)).runLevel) :=
  ⟨by decide, rfl,
    (depth_levels_are_price_runs
      ⟨Slab.twoLeaf, .sell, .ofSizes 1 1 0 0⟩).2.1 1 (by decide)
      (.inl rfl)⟩

end Depth

end Orderbook

end Clob
