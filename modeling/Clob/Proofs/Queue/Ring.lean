import Clob.Queue.Event
/-!
# The two views of a queue ring

A queue account is a ring of `capacity` fixed-size slots after its header. Its live view lists the
`count` records from the head on, oldest first; its history of `n` lists the `min n capacity` most
recently written slots, newest first. Sequence numbers count modulo `2 ^ 32`.

Record `i` of the live view is slot `(head + i) mod capacity`, numbered
`seqNum - count + i`; record `i` of a history is slot `(head + count - 1 - i) mod capacity`,
numbered `seqNum - 1 - i`. A history never lists a slot twice, and where it overlaps the live
records it lists them in reverse: its record `i` is live record `count - 1 - i`, for every head,
count, capacity and sequence number that a header can hold.
-/

namespace Clob

namespace LittleEndian

theorem getElem?_records (size count : Nat) (bytes : List UInt8) (s : Nat) :
    (records size count bytes)[s]? =
      if s < count then some ((bytes.drop (s * size)).take size) else none := by
  induction count generalizing s bytes with
  | zero => simp [records]
  | succ count ih =>
      cases s with
      | zero => simp [records]
      | succ s =>
          simp only [records, List.getElem?_cons_succ, ih, List.drop_drop]
          by_cases hs : s < count
          · simp [hs, Nat.succ_mul, Nat.add_comm]
          · simp [hs]

end LittleEndian

namespace Ring

def slot (kind : QueueKind) (data : List UInt8) (s : Nat) : List UInt8 :=
  LittleEndian.slice data (headerSize + s * kind.stride) kind.stride

variable {kind : QueueKind} {data : List UInt8} {r : Ring}

theorem read_eq_ok (h : read kind data = .ok r) :
    r.capacity = (data.length - headerSize - tailSize) / kind.stride ∧
      r.header.count ≤ r.capacity ∧ (0 < r.capacity → r.header.head < r.capacity) := by
  unfold read at h
  simp only [bind, Except.bind, pure, Except.pure] at h
  split at h
  · cases h
  · split at h
    · cases h
    · split at h
      · cases h
      · split at h
        · cases h
        · rename_i hcount hhead
          cases h
          refine ⟨rfl, Nat.le_of_not_lt hcount, fun hpos => ?_⟩
          exact Nat.lt_of_not_le fun hge => hhead ⟨hpos, hge⟩

theorem records_getD_of_lt (h : read kind data = .ok r) {s : Nat} (hs : s < r.capacity) :
    (records kind data).getD s [] = slot kind data s := by
  have hcap := (read_eq_ok h).1
  have hlt : s < (data.drop headerSize).length / kind.stride := by
    have hle : (data.length - headerSize - tailSize) / kind.stride ≤
        (data.length - headerSize) / kind.stride := Nat.div_le_div_right (Nat.sub_le _ _)
    rw [List.length_drop]
    omega
  simp only [records, LittleEndian.chunks, Array.getD_eq_getD_getElem?, List.getElem?_toArray,
    LittleEndian.getElem?_records, if_pos hlt, Option.getD_some, slot, LittleEndian.slice,
    List.drop_drop]

theorem length_slot (h : read kind data = .ok r) {s : Nat} (hs : s < r.capacity) :
    (slot kind data s).length = kind.stride := by
  have hcap := (read_eq_ok h).1
  have hfit : (s + 1) * kind.stride ≤ data.length - headerSize - tailSize := by
    calc (s + 1) * kind.stride ≤ r.capacity * kind.stride := Nat.mul_le_mul_right _ hs
      _ ≤ data.length - headerSize - tailSize := by rw [hcap]; exact Nat.div_mul_le_self _ _
  rw [Nat.succ_mul] at hfit
  simp only [slot, LittleEndian.slice, List.length_take, List.length_drop]
  omega

theorem getElem?_live (i : Nat) :
    r.live[i]? =
      if i < r.header.count then
        some ((r.header.head + i) % r.capacity,
          (((r.header.seqNum : Int) - r.header.count + i) % 2 ^ 32).toNat)
      else none := by
  by_cases hi : i < r.header.count
  · simp only [live, List.getElem?_map, List.getElem?_range hi, Option.map_some, if_pos hi,
      seqModulus]
    congr 3
    omega
  · simp [live, hi]

theorem recent_slot (i : Nat) (hi : i < r.capacity) :
    (r.header.head + r.header.count + r.capacity - 1 - i) % r.capacity =
      (((r.header.head + r.header.count - 1 - i : Int)) % r.capacity).toNat := by
  have hsum : ((r.header.head + r.header.count + r.capacity - 1 - i : Nat) : Int) =
      (r.header.head + r.header.count - 1 - i : Int) + r.capacity := by omega
  rw [← Int.add_emod_right, ← hsum, ← Int.natCast_emod, Int.toNat_natCast]

theorem getElem?_recent (n i : Nat) :
    (r.recent n)[i]? =
      if i < min n r.capacity then
        some ((((r.header.head + r.header.count - 1 - i : Int)) % r.capacity).toNat,
          (((r.header.seqNum : Int) - 1 - i) % 2 ^ 32).toNat)
      else none := by
  by_cases hi : i < min n r.capacity
  · simp only [recent, List.getElem?_map, List.getElem?_range hi, Option.map_some, if_pos hi,
      seqModulus, Int.natCast_pow,
      recent_slot i (Nat.lt_of_lt_of_le hi (Nat.min_le_right _ _))]
    rfl
  · simp [recent, hi]

theorem recent_slot_injective {i j : Nat} (hij : i < j) (hj : j < r.capacity) :
    ((r.header.head + r.header.count - 1 - i : Int)) % r.capacity ≠
      ((r.header.head + r.header.count - 1 - j : Int)) % r.capacity := by
  intro heq
  have hdvd : (r.capacity : Int) ∣ (j : Int) - i := by
    have hdiff : ((r.header.head + r.header.count - 1 - i : Int)) -
        (r.header.head + r.header.count - 1 - j) = (j : Int) - i := by omega
    rw [← hdiff]
    apply Int.dvd_of_emod_eq_zero
    rw [Int.sub_emod, heq, Int.sub_self, Int.zero_emod]
  have hpos : (0 : Int) < (j : Int) - i := by omega
  have hle := Int.le_of_dvd hpos hdvd
  omega

theorem recent_eq_live (hcount : r.header.count ≤ r.capacity) {n i : Nat}
    (hi : i < min n r.header.count) :
    (r.recent n)[i]? = r.live[r.header.count - 1 - i]? := by
  have hin : i < min n r.capacity := by omega
  have hback : r.header.count - 1 - i < r.header.count := by omega
  rw [getElem?_recent, if_pos hin, getElem?_live, if_pos hback]
  have hslot : ((r.header.head + r.header.count - 1 - i : Int)) =
      ((r.header.head + (r.header.count - 1 - i) : Nat) : Int) := by omega
  rw [hslot, ← Int.natCast_emod, Int.toNat_natCast]
  congr 3
  omega

theorem live_slot_lt (hcount : r.header.count ≤ r.capacity) : ∀ p ∈ r.live, p.1 < r.capacity := by
  intro p hp
  obtain ⟨i, hi, rfl⟩ := List.mem_map.mp hp
  exact Nat.mod_lt _ (by simp at hi; omega)

theorem recent_slot_lt (n : Nat) : ∀ p ∈ r.recent n, p.1 < r.capacity := by
  intro p hp
  obtain ⟨i, hi, rfl⟩ := List.mem_map.mp hp
  exact Nat.mod_lt _ (by simp at hi; omega)

section Decode

variable {α : Type} {readRecord : List UInt8 → Nat → α}

theorem map_records_getD (h : read kind data = .ok r) {ps : List (Nat × Nat)}
    (hps : ∀ p ∈ ps, p.1 < r.capacity) :
    ps.map (fun (slot, seq) => readRecord ((records kind data).getD slot []) seq) =
      ps.map fun p => readRecord (slot kind data p.1) p.2 := by
  apply List.map_congr_left
  rintro ⟨s, seq⟩ hp
  simp only [records_getD_of_lt h (hps _ hp)]

theorem decode_eq (history : Option Int) :
    decode kind readRecord data history =
      (read kind data).bind fun r => (r.positions history).map fun ps =>
        ⟨r, ps.map fun (slot, seq) => readRecord ((records kind data).getD slot []) seq⟩ := by
  simp only [decode, bind, pure, Except.map]
  cases read kind data with
  | error e => rfl
  | ok r =>
      cases r.positions history <;> rfl

theorem decode_none {q : Queue α} (h : decode kind readRecord data none = .ok q) :
    read kind data = .ok q.ring ∧
      q.records = q.ring.live.map fun p => readRecord (slot kind data p.1) p.2 := by
  rw [decode_eq] at h
  cases hr : read kind data with
  | error e => simp [hr, Except.bind] at h
  | ok r =>
      simp only [hr, Except.bind, positions, Except.map, Except.ok.injEq] at h
      subst h
      exact ⟨rfl, map_records_getD hr (live_slot_lt (read_eq_ok hr).2.1)⟩

theorem decode_some (hr : read kind data = .ok r) {n : Int} (hn : 0 ≤ n) :
    decode kind readRecord data (some n) =
      .ok ⟨r, (r.recent n.toNat).map fun p => readRecord (slot kind data p.1) p.2⟩ := by
  rw [decode_eq, hr]
  simp only [Except.bind, positions, if_neg (Int.not_lt.mpr hn), Except.map]
  rw [map_records_getD hr (recent_slot_lt n.toNat)]

theorem decode_records {history : Option Int} {q : Queue α}
    (h : decode kind readRecord data history = .ok q) :
    read kind data = .ok q.ring ∧ ∃ ps : List (Nat × Nat), (∀ p ∈ ps, p.1 < q.ring.capacity) ∧
      q.records = ps.map fun p => readRecord (slot kind data p.1) p.2 := by
  cases history with
  | none =>
      obtain ⟨hr, hrec⟩ := decode_none h
      exact ⟨hr, _, live_slot_lt (read_eq_ok hr).2.1, hrec⟩
  | some n =>
      cases hr : read kind data with
      | error e => simp [decode_eq, hr, Except.bind] at h
      | ok r =>
          by_cases hn : n < 0
          · simp [decode_eq, hr, Except.bind, positions, hn, Except.map] at h
          · rw [decode_some hr (Int.not_lt.mp hn), Except.ok.injEq] at h
            subst h
            exact ⟨rfl, _, recent_slot_lt n.toNat, rfl⟩

/-- The live view and the histories of a queue ring that decodes, for either kind of queue and
the reader of its records (the event queue reads with `Event.read`, which keeps the number it is
given as the event's sequence number; the request queue with `Request.read`). The live view
lists `count` records, record `i` read from slot `(head + i) mod capacity` and numbered
`seqNum - count + i` modulo `2 ^ 32`. For every `n ≥ 0` the history of `n` decodes too, over the
same header, and lists `min n capacity` records, record `i` read from slot
`(head + count - 1 - i) mod capacity` and numbered `seqNum - 1 - i` modulo `2 ^ 32`; no two of
them come from one slot, and its record `i` is live record `count - 1 - i` wherever both
exist. -/
theorem decode_live_and_history (kind : QueueKind) (readRecord : List UInt8 → Nat → α)
    (data : List UInt8) (q : Queue α) (h : decode kind readRecord data none = .ok q) :
    q.records.length = q.ring.header.count ∧
    (∀ i < q.ring.header.count, q.records[i]? = some (readRecord
        (slot kind data ((q.ring.header.head + i) % q.ring.capacity))
        (((q.ring.header.seqNum : Int) - q.ring.header.count + i) % 2 ^ 32).toNat)) ∧
    ∀ n : Int, 0 ≤ n → ∃ q' : Queue α, decode kind readRecord data (some n) = .ok q' ∧
      q'.ring = q.ring ∧ q'.records.length = min n.toNat q.ring.capacity ∧
      (∀ i < min n.toNat q.ring.capacity, q'.records[i]? = some (readRecord
        (slot kind data
          (((q.ring.header.head + q.ring.header.count - 1 - i : Int)) % q.ring.capacity).toNat)
        (((q.ring.header.seqNum : Int) - 1 - i) % 2 ^ 32).toNat)) ∧
      (∀ i j, i < j → j < min n.toNat q.ring.capacity →
        ((q.ring.header.head + q.ring.header.count - 1 - i : Int)) % q.ring.capacity ≠
          ((q.ring.header.head + q.ring.header.count - 1 - j : Int)) % q.ring.capacity) ∧
      ∀ i < min n.toNat q.ring.header.count,
        q'.records[i]? = q.records[q.ring.header.count - 1 - i]? := by
  obtain ⟨hr, hrec⟩ := decode_none h
  have hcount := (read_eq_ok hr).2.1
  refine ⟨by simp [hrec, live], fun i hi => ?_, fun n hn => ?_⟩
  · rw [hrec, List.getElem?_map, getElem?_live, if_pos hi]
    rfl
  · refine ⟨_, decode_some hr hn, rfl, by simp [recent], fun i hi => ?_,
      fun i j hij hj => recent_slot_injective hij (by omega), fun i hi => ?_⟩
    · simp only [List.getElem?_map, getElem?_recent, if_pos hi]
      rfl
    · rw [hrec, List.getElem?_map, List.getElem?_map, recent_eq_live hcount hi]

end Decode

/-- An event queue of three slots whose head is its last slot and whose two live events wrap
around to the first, numbered from `seqNum = 1`, so that the older number wraps below zero. -/
def wrappedEvents : List UInt8 :=
  [0, 0, 0, 0, 0, 17, 0, 0, 0, 0, 0, 0, 0, 2, 0, 0, 0, 0, 0, 0, 0, 2, 0, 0, 0, 0, 0, 0, 0, 1, 0,
    0, 0, 0, 0, 0, 0] ++ List.replicate 271 0

set_option maxRecDepth 8000 in
theorem wrappedEvents_history_mirrors_live :
    decode .event Event.read wrappedEvents none =
        .ok ⟨⟨⟨AccountFlags.ofWord 17, 2, 2, 1⟩, 3⟩,
          [Event.read (slot .event wrappedEvents 2) (2 ^ 32 - 1),
            Event.read (slot .event wrappedEvents 0) 0]⟩ ∧
      ∃ q', decode .event Event.read wrappedEvents (some 1) = .ok q' ∧
        q'.records[0]? = some (Event.read (slot .event wrappedEvents 0) 0) := by
  have hdec : decode .event Event.read wrappedEvents none =
      .ok ⟨⟨⟨AccountFlags.ofWord 17, 2, 2, 1⟩, 3⟩,
        [Event.read (slot .event wrappedEvents 2) (2 ^ 32 - 1),
          Event.read (slot .event wrappedEvents 0) 0]⟩ := by
    rfl
  obtain ⟨q', hq', -, -, -, -, hagree⟩ :=
    (decode_live_and_history .event Event.read wrappedEvents _ hdec).2.2 1 (by decide)
  exact ⟨hdec, q', hq', hagree 0 (by decide)⟩

end Ring

end Clob
