import Clob.Proofs.Queue.Ring
/-!
# Which buffers read as a queue

A queue account is refused as malformed exactly when its header fails one of four checks
(`Ring.HeaderOk`): the 37 header bytes are present, the flags mark an initialized queue of its
kind, the live count fits the ring, and a ring with slots has its head among them. A header that
passes is refused only for a negative history, as a value error, and read otherwise.

The ring's capacity counts the whole records between the header and the seven end bytes, so
every record that is read comes from a slot below the capacity, whose bytes all lie before the
end bytes. A ring of capacity zero lists no records at all, so no slot is ever taken modulo
zero.
-/

namespace Clob

namespace Ring

def flagsOf (data : List UInt8) : AccountFlags := AccountFlags.ofWord (LittleEndian.field data 5 8)

def capacityOf (kind : QueueKind) (data : List UInt8) : Nat :=
  (data.length - headerSize - tailSize) / kind.stride

def headerOf (data : List UInt8) : QueueHeader :=
  ⟨flagsOf data, LittleEndian.field data 13 4, LittleEndian.field data 21 4,
    LittleEndian.field data 29 4⟩

structure HeaderOk (kind : QueueKind) (data : List UInt8) : Prop where
  whole : headerSize ≤ data.length
  initialized : (flagsOf data).has .initialized = true
  marked : (flagsOf data).has kind.flag = true
  count_le : (headerOf data).count ≤ capacityOf kind data
  head_lt : 0 < capacityOf kind data → (headerOf data).head < capacityOf kind data

variable {kind : QueueKind} {data : List UInt8} {r : Ring} {f : Fault}

theorem read_eq (kind : QueueKind) (data : List UInt8) :
    read kind data =
      if data.length < headerSize then .error (.queueHeaderShort kind data.length)
      else if !((flagsOf data).has .initialized && (flagsOf data).has kind.flag) then
        .error (.queueUnmarked kind (flagsOf data))
      else if (headerOf data).count > capacityOf kind data then
        .error (.queueCountBeyond kind (headerOf data).count (capacityOf kind data))
      else if capacityOf kind data > 0 ∧ (headerOf data).head ≥ capacityOf kind data then
        .error (.queueHeadBeyond kind (headerOf data).head (capacityOf kind data))
      else .ok ⟨headerOf data, capacityOf kind data⟩ := by
  simp only [read, bind, Except.bind, pure, Except.pure, throw, throwThe, MonadExceptOf.throw]
  rfl

theorem read_of_headerOk (h : HeaderOk kind data) :
    read kind data = .ok ⟨headerOf data, capacityOf kind data⟩ := by
  have hmarked : (!((flagsOf data).has .initialized && (flagsOf data).has kind.flag)) = false := by
    simp [h.initialized, h.marked]
  have hhead : ¬ (capacityOf kind data > 0 ∧ (headerOf data).head ≥ capacityOf kind data) :=
    fun ⟨hpos, hge⟩ => Nat.not_le.mpr (h.head_lt hpos) hge
  rw [read_eq, if_neg (Nat.not_lt.mpr h.whole), hmarked, if_neg Bool.false_ne_true,
    if_neg (Nat.not_lt.mpr h.count_le), if_neg hhead]

theorem read_eq_error_iff :
    (∃ f, read kind data = .error f) ↔ ¬ HeaderOk kind data := by
  constructor
  · rintro ⟨f, hf⟩ h
    rw [read_of_headerOk h] at hf
    cases hf
  · intro hbad
    rw [read_eq]
    split
    · exact ⟨_, rfl⟩
    split
    · exact ⟨_, rfl⟩
    split
    · exact ⟨_, rfl⟩
    split
    · exact ⟨_, rfl⟩
    rename_i hshort hunmarked hcount hhead
    simp only [Bool.not_eq_true', Bool.and_eq_false_iff, not_or, Bool.not_eq_false] at hunmarked
    exact absurd ⟨Nat.le_of_not_lt hshort, hunmarked.1, hunmarked.2, Nat.le_of_not_lt hcount,
      fun hpos => Nat.lt_of_not_le fun hge => hhead ⟨hpos, hge⟩⟩ hbad

theorem read_error_kind (h : read kind data = .error f) : f.kind = .format := by
  rw [read_eq] at h
  split at h
  · cases h; rfl
  split at h
  · cases h; rfl
  split at h
  · cases h; rfl
  split at h
  · cases h; rfl
  cases h

/-! ## The records asked for -/

theorem positions_eq_error_iff {history : Option Int} :
    r.positions history = .error f ↔ ∃ n, history = some n ∧ n < 0 ∧ f = .historyNegative n := by
  cases history with
  | none => simp [positions]
  | some n =>
      by_cases hn : n < 0
      · simp [positions, hn, eq_comm]
      · simp [positions, hn]

theorem positions_isOk {history : Option Int} :
    (∃ ps, r.positions history = .ok ps) ↔ ∀ n, history = some n → 0 ≤ n := by
  cases history with
  | none => simp [positions]
  | some n =>
      by_cases hn : n < 0
      · simp only [positions, hn, if_true, reduceCtorEq, exists_false, Option.some.injEq,
          forall_eq', false_iff]
        omega
      · simp only [positions, hn, if_false, Except.ok.injEq, exists_eq', Option.some.injEq,
          forall_eq', true_iff]
        omega

theorem slot_end_le (h : read kind data = .ok r) {s : Nat} (hs : s < r.capacity) :
    headerSize + (s + 1) * kind.stride + tailSize ≤ data.length := by
  have hcap := (read_eq_ok h).1
  have hfit : (s + 1) * kind.stride ≤ data.length - headerSize - tailSize :=
    calc (s + 1) * kind.stride ≤ r.capacity * kind.stride := Nat.mul_le_mul_right _ hs
      _ ≤ data.length - headerSize - tailSize := by rw [hcap]; exact Nat.div_mul_le_self _ _
  have hstride : 0 < kind.stride := by cases kind <;> decide
  have hpos : 0 < (s + 1) * kind.stride := Nat.mul_pos (Nat.succ_pos s) hstride
  omega

section Decode

variable {α : Type} {readRecord : List UInt8 → Nat → α} {history : Option Int}

theorem decode_of_read_error (h : read kind data = .error f) :
    decode kind readRecord data history = .error f := by
  rw [decode_eq, h]
  rfl

theorem decode_eq_error_of_read_ok (h : read kind data = .ok r) :
    decode kind readRecord data history = .error f ↔ r.positions history = .error f := by
  rw [decode_eq, h]
  cases hp : r.positions history <;> simp [hp, Except.bind, Except.map]

theorem decode_isOk_of_read_ok (h : read kind data = .ok r) :
    (∃ q, decode kind readRecord data history = .ok q) ↔ ∃ ps, r.positions history = .ok ps := by
  rw [decode_eq, h]
  cases hp : r.positions history <;> simp [hp, Except.bind, Except.map]

/-- The checks on a queue account, for either kind of queue and any reader of its records. It is
refused with a format fault exactly when its header fails a check. With a sound header it is
refused only for a negative history, with a value fault, and read otherwise. Whatever it reads
comes from slots below the capacity `C` (the whole records between the 37 header bytes and the 7
end bytes), each of `stride` bytes that all lie before the end bytes, and a ring of capacity
zero lists no records. -/
theorem decode_refuses_exactly_bad_headers (kind : QueueKind) (readRecord : List UInt8 → Nat → α)
    (data : List UInt8) (history : Option Int) :
    ((∃ f, decode kind readRecord data history = .error f ∧ f.kind = .format) ↔
      ¬ HeaderOk kind data) ∧
    (HeaderOk kind data →
      ((∃ f, decode kind readRecord data history = .error f ∧ f.kind = .value) ↔
        ∃ n, history = some n ∧ n < 0) ∧
      ((∃ q, decode kind readRecord data history = .ok q) ↔ ∀ n, history = some n → 0 ≤ n)) ∧
    ∀ q, decode kind readRecord data history = .ok q →
      q.ring.capacity = capacityOf kind data ∧
      (q.ring.capacity = 0 → q.records = []) ∧
      ∃ ps : List (Nat × Nat),
        (∀ p ∈ ps, p.1 < q.ring.capacity ∧ (slot kind data p.1).length = kind.stride ∧
          headerSize + (p.1 + 1) * kind.stride + tailSize ≤ data.length) ∧
        q.records = ps.map fun p => readRecord (slot kind data p.1) p.2 := by
  refine ⟨⟨?_, fun hbad => ?_⟩, fun hok => ⟨?_, ?_⟩, fun q hq => ?_⟩
  · rintro ⟨f, hf, hkind⟩ hok
    obtain ⟨n, -, -, rfl⟩ :=
      positions_eq_error_iff.mp ((decode_eq_error_of_read_ok (read_of_headerOk hok)).mp hf)
    cases hkind
  · obtain ⟨f, hf⟩ := read_eq_error_iff.mpr hbad
    exact ⟨f, decode_of_read_error hf, read_error_kind hf⟩
  · constructor
    · rintro ⟨f, hf, -⟩
      obtain ⟨n, hn, hneg, -⟩ :=
        positions_eq_error_iff.mp ((decode_eq_error_of_read_ok (read_of_headerOk hok)).mp hf)
      exact ⟨n, hn, hneg⟩
    · rintro ⟨n, hn, hneg⟩
      exact ⟨_, (decode_eq_error_of_read_ok (read_of_headerOk hok)).mpr
        (positions_eq_error_iff.mpr ⟨n, hn, hneg, rfl⟩), rfl⟩
  · rw [decode_isOk_of_read_ok (read_of_headerOk hok), positions_isOk]
  · obtain ⟨hr, ps, hps, hrec⟩ := decode_records hq
    have hcap := (read_eq_ok hr).1
    refine ⟨hcap, fun hzero => ?_, ps,
      fun p hp => ⟨hps p hp, length_slot hr (hps p hp), slot_end_le hr (hps p hp)⟩, hrec⟩
    have hnil : ps = [] := List.eq_nil_iff_forall_not_mem.mpr fun p hp => by
      have := hps p hp
      omega
    rw [hrec, hnil, List.map_nil]

theorem wrappedEvents_header_sound :
    HeaderOk .event wrappedEvents ∧
      (∃ q, decode .event Event.read wrappedEvents (some 5) = .ok q) ∧
      ∃ f, decode .event Event.read wrappedEvents (some (-1)) = .error f ∧ f.kind = .value := by
  have hok : HeaderOk .event wrappedEvents :=
    ⟨by decide +kernel, by decide, by decide, by decide +kernel, by decide +kernel⟩
  have hfive := ((decode_refuses_exactly_bad_headers .event Event.read wrappedEvents
    (some 5)).2.1 hok).2
  have hneg := ((decode_refuses_exactly_bad_headers .event Event.read wrappedEvents
    (some (-1))).2.1 hok).1
  refine ⟨hok, hfive.mpr fun n hn => ?_, hneg.mpr ⟨-1, rfl, by decide⟩⟩
  cases hn
  decide

end Decode

end Ring

end Clob
