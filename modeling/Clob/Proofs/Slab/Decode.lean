import Clob.Slab.Decode
import Clob.Proofs.Queue.Ring
/-!
# Which buffers read as a slab

`Slab.decode` accepts a buffer exactly when its header is whole, its records fill the rest, the
bump index and the root lie among the records, and every record reads as a node: a known tag,
and for an inner node a prefix of at most 127 bits (`Slab.Accepts`). Otherwise it refuses the
buffer with the fault of the first of these checks that fails, the records taken in index order
(`Slab.Rejects`).

A decoded slab has one node per record, and node `i` is read from the `i`-th 72-byte record
after the header and from nothing else. Every field of a record lies inside its 72 bytes
(`Slab.readNode_take_stride`), so reading a record at its offset in the whole buffer reads no
byte past it, and no read of a buffer that passes the length checks runs off its end.
-/

namespace Clob

namespace LittleEndian

theorem field_take {data : List UInt8} {n offset width : Nat} (h : offset + width ≤ n) :
    field (data.take n) offset width = field data offset width := by
  simp only [field, List.drop_take, List.take_take]
  congr 2
  omega

theorem slice_take {data : List UInt8} {n offset width : Nat} (h : offset + width ≤ n) :
    slice (data.take n) offset width = slice data offset width := by
  simp only [slice, List.drop_take, List.take_take]
  congr 1
  omega

end LittleEndian

namespace Slab

def recordCount (size : Nat) : Nat := (size - headerSize) / stride

def recordBytes (data : List UInt8) (i : Nat) : List UInt8 :=
  LittleEndian.slice data (headerSize + stride * i) stride

def tag (r : List UInt8) : Nat := LittleEndian.field r 0 4

def innerPrefix (r : List UInt8) : Nat := LittleEndian.field r 4 4

def RecordOk (r : List UInt8) : Prop := tag r ≤ 4 ∧ (tag r = 1 → innerPrefix r ≤ 127)

instance : DecidablePred RecordOk := fun _ => inferInstanceAs (Decidable (_ ∧ _))

def recordFault (i : Nat) (r : List UInt8) : Fault :=
  if tag r ≤ 4 then .nodePrefixTooLong i (innerPrefix r) else .nodeTagUnknown i (tag r)

structure HeaderOk (data : List UInt8) : Prop where
  whole : headerSize ≤ data.length
  filled : (data.length - headerSize) % stride = 0
  bump_le : LittleEndian.field data 0 4 ≤ recordCount data.length
  root_lt : LittleEndian.field data 24 4 = 0 ∨
    LittleEndian.field data 20 4 < recordCount data.length

/-- A buffer that reads as a slab: its header passes its checks and every record reads as a
node. -/
structure Accepts (data : List UInt8) : Prop extends HeaderOk data where
  records_ok : ∀ i < recordCount data.length, RecordOk (recordBytes data i)

/-- The fault that a buffer is refused with: that of the first check it fails, in the order
header length, record stride, bump index, root index, and then the records by index. -/
inductive Rejects (data : List UInt8) : Fault → Prop where
  | short : data.length < headerSize → Rejects data (.slabHeaderShort data.length)
  | ragged : headerSize ≤ data.length → (data.length - headerSize) % stride ≠ 0 →
      Rejects data (.slabBodyStride (data.length - headerSize))
  | bump : headerSize ≤ data.length → (data.length - headerSize) % stride = 0 →
      recordCount data.length < LittleEndian.field data 0 4 →
      Rejects data (.slabBumpBeyond (LittleEndian.field data 0 4) (recordCount data.length))
  | root : headerSize ≤ data.length → (data.length - headerSize) % stride = 0 →
      LittleEndian.field data 0 4 ≤ recordCount data.length → 0 < LittleEndian.field data 24 4 →
      recordCount data.length ≤ LittleEndian.field data 20 4 →
      Rejects data
        (.slabRootOutOfRange (LittleEndian.field data 20 4) (recordCount data.length))
  | badRecord {j : Nat} : HeaderOk data → j < recordCount data.length →
      (∀ i < j, RecordOk (recordBytes data i)) → ¬ RecordOk (recordBytes data j) →
      Rejects data (recordFault j (recordBytes data j))

/-! ## One record -/

theorem readNode_take_stride (i : Nat) (r : List UInt8) :
    readNode i (r.take stride) = readNode i r := by
  simp (disch := simp only [stride]; omega) only [readNode, LittleEndian.field_take,
    LittleEndian.slice_take]

theorem readNode_eq_error_iff {i : Nat} {r : List UInt8} {f : Fault} :
    readNode i r = .error f ↔ ¬ RecordOk r ∧ f = recordFault i r := by
  simp only [readNode, RecordOk, recordFault, tag, innerPrefix]
  split
  case h_2 htag =>
    split
    · simp only [Except.error.injEq, htag]
      grind
    · simp only [reduceCtorEq, false_iff]
      omega
  case h_6 _ h0 h1 h2 h3 h4 =>
    have hbig : ¬ LittleEndian.field r 0 4 ≤ 4 := by
      simp only [imp_false] at *
      omega
    simp only [Except.error.injEq, hbig, if_false]
    grind
  all_goals
    rename_i htag
    simp [htag]

theorem readNode_isOk {i : Nat} {r : List UInt8} : (∃ n, readNode i r = .ok n) ↔ RecordOk r := by
  cases h : readNode i r with
  | error f =>
      simp only [reduceCtorEq, exists_false, false_iff]
      exact (readNode_eq_error_iff.mp h).1
  | ok n =>
      simp only [Except.ok.injEq, exists_eq', true_iff]
      refine Decidable.byContradiction fun hr => ?_
      cases h.symm.trans (readNode_eq_error_iff.mpr ⟨hr, rfl⟩)

theorem prefixLen_le_of_readNode {i : Nat} {r : List UInt8} {b : Branch}
    (h : readNode i r = .ok (.inner b)) : b.prefixLen ≤ 127 := by
  simp only [readNode] at h
  split at h
  all_goals try cases h
  split at h
  · cases h
  · cases h
    dsimp only
    omega

/-! ## The records in index order -/

theorem readNodes_cons_of_error {k : Nat} {r : List UInt8} {rest : List (List UInt8)} {f : Fault}
    (h : readNode k r = .error f) : readNodes k (r :: rest) = .error f := by
  simp [readNodes, h, bind, Except.bind]

theorem readNodes_cons_of_ok {k : Nat} {r : List UInt8} {rest : List (List UInt8)} {n : Node}
    (h : readNode k r = .ok n) : readNodes k (r :: rest) = (readNodes (k + 1) rest).map (n :: ·) := by
  simp only [readNodes, h, bind, Except.bind, pure, Except.pure]
  cases readNodes (k + 1) rest <;> rfl

theorem readNodes_cons_eq_ok {k : Nat} {r : List UInt8} {rest : List (List UInt8)}
    {ns : List Node} :
    readNodes k (r :: rest) = .ok ns ↔
      ∃ n ns', readNode k r = .ok n ∧ readNodes (k + 1) rest = .ok ns' ∧ ns = n :: ns' := by
  cases hr : readNode k r with
  | error f => simp [readNodes_cons_of_error hr]
  | ok n =>
      rw [readNodes_cons_of_ok hr, Except.map_eq_ok_iff]
      constructor
      · rintro ⟨ns', hrest, rfl⟩
        exact ⟨n, ns', rfl, hrest, rfl⟩
      · rintro ⟨n', ns', hn, hrest, rfl⟩
        cases hn
        exact ⟨ns', hrest, rfl⟩

theorem readNodes_isOk {k : Nat} {rs : List (List UInt8)} :
    (∃ ns, readNodes k rs = .ok ns) ↔ ∀ r ∈ rs, RecordOk r := by
  induction rs generalizing k with
  | nil => simp [readNodes]
  | cons r rest ih =>
      cases h : readNode k r with
      | error f =>
          have hr := (readNode_eq_error_iff.mp h).1
          simp [readNodes_cons_of_error h, hr]
      | ok n =>
          have hr := readNode_isOk.mp ⟨n, h⟩
          rw [readNodes_cons_of_ok h, List.forall_mem_cons, ← ih]
          cases readNodes (k + 1) rest <;> simp [Except.map, hr]

theorem getElem?_readNodes {k : Nat} {rs : List (List UInt8)} {ns : List Node}
    (h : readNodes k rs = .ok ns) (i : Nat) :
    ns[i]? = rs[i]?.bind fun r => (readNode (k + i) r).toOption := by
  induction rs generalizing k ns i with
  | nil =>
      simp only [readNodes, Except.ok.injEq] at h
      simp [← h]
  | cons r rest ih =>
      obtain ⟨n, ns', hr, hrest, rfl⟩ := readNodes_cons_eq_ok.mp h
      cases i with
      | zero => simp [hr, Except.toOption]
      | succ i => simp [ih hrest i, Nat.add_right_comm k 1 i, Nat.add_assoc]

theorem readNodes_eq_error_iff {k : Nat} {rs : List (List UInt8)} {f : Fault} :
    readNodes k rs = .error f ↔
      ∃ j, ∃ hj : j < rs.length, (∀ r ∈ rs.take j, RecordOk r) ∧ ¬ RecordOk rs[j] ∧
        f = recordFault (k + j) rs[j] := by
  induction rs generalizing k with
  | nil => simp [readNodes]
  | cons r rest ih =>
      cases h : readNode k r with
      | error e =>
          obtain ⟨hr, rfl⟩ := readNode_eq_error_iff.mp h
          rw [readNodes_cons_of_error h, Except.error.injEq]
          constructor
          · rintro rfl
            exact ⟨0, by simp, by simp, hr, rfl⟩
          · rintro ⟨j, hj, hok, hbad, rfl⟩
            cases j with
            | zero => rfl
            | succ j => exact absurd (hok r (by simp)) hr
      | ok n =>
          have hr := readNode_isOk.mp ⟨n, h⟩
          rw [readNodes_cons_of_ok h, Except.map_eq_error_iff, ih]
          constructor
          · rintro ⟨j, hj, hok, hbad, rfl⟩
            refine ⟨j + 1, by simpa using hj, ?_, by simpa using hbad, ?_⟩
            · simpa [hr] using hok
            · simp [Nat.add_right_comm k 1 j, Nat.add_assoc]
          · rintro ⟨j, hj, hok, hbad, rfl⟩
            cases j with
            | zero => exact absurd hr hbad
            | succ j =>
                refine ⟨j, by simpa using hj, fun r' hr' => hok r' (by simp [hr']), hbad, ?_⟩
                simp [Nat.add_right_comm k 1 j, Nat.add_assoc]

theorem length_readNodes {k : Nat} {rs : List (List UInt8)} {ns : List Node}
    (h : readNodes k rs = .ok ns) : ns.length = rs.length := by
  induction rs generalizing k ns with
  | nil =>
      simp only [readNodes, Except.ok.injEq] at h
      simp [← h]
  | cons r rest ih =>
      obtain ⟨n, ns', -, hrest, rfl⟩ := readNodes_cons_eq_ok.mp h
      simp [ih hrest]

theorem length_records (size count : Nat) (bytes : List UInt8) :
    (LittleEndian.records size count bytes).length = count := by
  induction count generalizing bytes with
  | zero => rfl
  | succ count ih => simp [LittleEndian.records, ih]

theorem getElem?_bodyRecords (data : List UInt8) (i : Nat) :
    (LittleEndian.records stride (recordCount data.length) (data.drop headerSize))[i]? =
      if i < recordCount data.length then some (recordBytes data i) else none := by
  rw [LittleEndian.getElem?_records]
  simp [recordBytes, LittleEndian.slice, List.drop_drop, Nat.mul_comm]

/-! ## The whole buffer -/

variable {data : List UInt8}

theorem decode_eq (data : List UInt8) :
    decode data =
      if data.length < headerSize then .error (.slabHeaderShort data.length)
      else if (data.length - headerSize) % stride ≠ 0 then
        .error (.slabBodyStride (data.length - headerSize))
      else if recordCount data.length < LittleEndian.field data 0 4 then
        .error (.slabBumpBeyond (LittleEndian.field data 0 4) (recordCount data.length))
      else if 0 < LittleEndian.field data 24 4 ∧
          recordCount data.length ≤ LittleEndian.field data 20 4 then
        .error (.slabRootOutOfRange (LittleEndian.field data 20 4) (recordCount data.length))
      else
        (readNodes 0 (LittleEndian.records stride (recordCount data.length)
          (data.drop headerSize))).map fun nodes => ⟨readHeader data, nodes.toArray⟩ :=
  rfl

theorem decode_of_headerOk (h : HeaderOk data) :
    decode data = (readNodes 0 (LittleEndian.records stride (recordCount data.length)
      (data.drop headerSize))).map fun nodes => ⟨readHeader data, nodes.toArray⟩ := by
  have hroot : ¬ (0 < LittleEndian.field data 24 4 ∧
      recordCount data.length ≤ LittleEndian.field data 20 4) := by
    rcases h.root_lt with h0 | hlt <;> omega
  rw [decode_eq, if_neg (Nat.not_lt.mpr h.whole), if_neg (Decidable.not_not.mpr h.filled),
    if_neg (Nat.not_lt.mpr h.bump_le), if_neg hroot]

theorem headerOk_of_decode_eq_ok {s : Slab} (h : decode data = .ok s) : HeaderOk data := by
  rw [decode_eq] at h
  split at h
  · cases h
  split at h
  · cases h
  split at h
  · cases h
  split at h
  · cases h
  rename_i h1 h2 h3 h4
  exact ⟨Nat.le_of_not_lt h1, Decidable.of_not_not h2, Nat.le_of_not_lt h3, by omega⟩

theorem length_bodyRecords (data : List UInt8) :
    (LittleEndian.records stride (recordCount data.length) (data.drop headerSize)).length =
      recordCount data.length :=
  length_records _ _ _

theorem getElem_bodyRecords {i : Nat}
    (hi : i < (LittleEndian.records stride (recordCount data.length) (data.drop headerSize)).length) :
    (LittleEndian.records stride (recordCount data.length) (data.drop headerSize))[i] =
      recordBytes data i := by
  have h := getElem?_bodyRecords data i
  rw [length_bodyRecords] at hi
  rw [if_pos hi, List.getElem?_eq_getElem (by rwa [length_bodyRecords])] at h
  exact Option.some.inj h

theorem decode_isOk_iff : (∃ s, decode data = .ok s) ↔ Accepts data := by
  constructor
  · rintro ⟨s, hs⟩
    have hh := headerOk_of_decode_eq_ok hs
    rw [decode_of_headerOk hh, Except.map_eq_ok_iff] at hs
    obtain ⟨ns, hns, -⟩ := hs
    have hall := readNodes_isOk.mp ⟨ns, hns⟩
    refine ⟨hh, fun i hi => hall _ (List.mem_of_getElem? (i := i) ?_)⟩
    rw [getElem?_bodyRecords, if_pos hi]
  · intro ha
    obtain ⟨ns, hns⟩ := readNodes_isOk.mpr fun r hr => by
      obtain ⟨i, hri⟩ := List.mem_iff_getElem?.mp hr
      rw [getElem?_bodyRecords] at hri
      split at hri
      · cases hri
        exact ha.records_ok i ‹_›
      · cases hri
    exact ⟨_, by rw [decode_of_headerOk ha.toHeaderOk, hns]; rfl⟩

theorem decode_eq_error_iff {f : Fault} : decode data = .error f ↔ Rejects data f := by
  by_cases hh : HeaderOk data
  · rw [decode_of_headerOk hh, Except.map_eq_error_iff, readNodes_eq_error_iff]
    constructor
    · rintro ⟨j, hj, hok, hbad, rfl⟩
      rw [getElem_bodyRecords, Nat.zero_add]
      rw [getElem_bodyRecords] at hbad
      rw [length_bodyRecords] at hj
      refine .badRecord hh hj (fun i hi => hok _ (List.mem_of_getElem? (i := i) ?_)) hbad
      rw [List.getElem?_take, if_pos hi, getElem?_bodyRecords, if_pos (by omega)]
    · intro hr
      cases hr with
      | short h => exact absurd hh.whole (by omega)
      | ragged _ h => exact absurd hh.filled h
      | bump _ _ h => exact absurd hh.bump_le (by omega)
      | root _ _ _ h0 h1 => rcases hh.root_lt with h | h <;> omega
      | @badRecord j _ hj hok hbad =>
          refine ⟨j, by rwa [length_bodyRecords], fun r hr => ?_, ?_, ?_⟩
          · obtain ⟨i, hri⟩ := List.mem_iff_getElem?.mp hr
            rw [List.getElem?_take] at hri
            split at hri
            · rw [getElem?_bodyRecords, if_pos (by omega)] at hri
              cases hri
              exact hok i ‹_›
            · cases hri
          · rwa [getElem_bodyRecords]
          · rw [getElem_bodyRecords, Nat.zero_add]
  · rw [decode_eq]
    by_cases h1 : data.length < headerSize
    · rw [if_pos h1, Except.error.injEq]
      constructor
      · rintro rfl
        exact .short h1
      · intro hr
        cases hr <;> first | rfl | omega | exact absurd ‹HeaderOk data›.whole (by omega)
    rw [if_neg h1]
    by_cases h2 : (data.length - headerSize) % stride ≠ 0
    · rw [if_pos h2, Except.error.injEq]
      constructor
      · rintro rfl
        exact .ragged (by omega) h2
      · intro hr
        cases hr <;> first | rfl | omega | exact absurd ‹HeaderOk data›.filled h2
    rw [if_neg h2]
    by_cases h3 : recordCount data.length < LittleEndian.field data 0 4
    · rw [if_pos h3, Except.error.injEq]
      constructor
      · rintro rfl
        exact .bump (by omega) (Decidable.of_not_not h2) h3
      · intro hr
        cases hr <;> first | rfl | omega | exact absurd ‹HeaderOk data›.bump_le (by omega)
    rw [if_neg h3]
    by_cases h4 : 0 < LittleEndian.field data 24 4 ∧
        recordCount data.length ≤ LittleEndian.field data 20 4
    · rw [if_pos h4, Except.error.injEq]
      constructor
      · rintro rfl
        exact .root (by omega) (Decidable.of_not_not h2) (by omega) h4.1 h4.2
      · intro hr
        cases hr with
        | root => rfl
        | badRecord hh' => rcases hh'.root_lt with h | h <;> omega
        | _ => omega
    exact absurd ⟨by omega, Decidable.of_not_not h2, by omega, by omega⟩ hh

theorem decode_eq_ok {s : Slab} (h : decode data = .ok s) :
    s.header = ⟨LittleEndian.field data 0 4, LittleEndian.field data 8 4,
      LittleEndian.field data 16 4, LittleEndian.field data 20 4, LittleEndian.field data 24 4⟩ ∧
    s.capacity = recordCount data.length ∧
    ∀ i, s.nodes[i]? =
      if i < recordCount data.length then (readNode i (recordBytes data i)).toOption else none := by
  rw [decode_of_headerOk (headerOk_of_decode_eq_ok h), Except.map_eq_ok_iff] at h
  obtain ⟨ns, hns, rfl⟩ := h
  refine ⟨rfl, ?_, fun i => ?_⟩
  · simp [capacity, length_readNodes hns, length_bodyRecords]
  · rw [List.getElem?_toArray, getElem?_readNodes hns, getElem?_bodyRecords, Nat.zero_add]
    split <;> rfl

theorem prefixLen_le_of_decode {s : Slab} (h : decode data = .ok s) {i : Nat} {b : Branch}
    (hb : s.nodes[i]? = some (.inner b)) : b.prefixLen ≤ 127 := by
  rw [(decode_eq_ok h).2.2 i] at hb
  split at hb
  · cases hr : readNode i (recordBytes data i) with
    | error f => rw [hr] at hb; cases hb
    | ok n =>
        rw [hr] at hb
        cases hb
        exact prefixLen_le_of_readNode hr
  · cases hb

theorem readNode_at_offset {i : Nat} (hh : HeaderOk data) (hi : i < recordCount data.length) :
    headerSize + stride * (i + 1) ≤ data.length ∧
      readNode i (data.drop (headerSize + stride * i)) = readNode i (recordBytes data i) := by
  have hfill := hh.filled
  have hwhole := hh.whole
  simp only [recordCount] at hi
  refine ⟨?_, ?_⟩
  · have hdiv := Nat.div_add_mod (data.length - headerSize) stride
    have hmul : stride * (i + 1) ≤ stride * ((data.length - headerSize) / stride) :=
      Nat.mul_le_mul_left _ hi
    omega
  · rw [recordBytes, LittleEndian.slice, readNode_take_stride]

theorem Rejects.kind {f : Fault} (h : Rejects data f) : f.kind = .format := by
  cases h with
  | badRecord =>
      unfold recordFault
      split <;> rfl
  | _ => rfl

/-- A buffer reads as a slab exactly when its header is whole, its records fill the rest, the
bump index and the root lie among the records and every record reads as a node; otherwise it is
refused with the format fault of the first check that fails, the records checked in index
order. A slab read from it has as many nodes as the buffer has records, the header's words at
offsets 0, 8, 16, 20 and 24, and node `i` read from the 72 bytes of record `i` alone, which lie
inside the buffer. -/
theorem decode_checks_in_order (data : List UInt8) :
    ((∃ s, decode data = .ok s) ↔ Accepts data) ∧
    (∀ f, decode data = .error f ↔ Rejects data f) ∧
    (∀ f, decode data = .error f → f.kind = .format) ∧
    ∀ s, decode data = .ok s →
      s.capacity = recordCount data.length ∧
      s.header = ⟨LittleEndian.field data 0 4, LittleEndian.field data 8 4,
        LittleEndian.field data 16 4, LittleEndian.field data 20 4,
        LittleEndian.field data 24 4⟩ ∧
      ∀ i < s.capacity, s.nodes[i]? = (readNode i (recordBytes data i)).toOption ∧
        headerSize + stride * (i + 1) ≤ data.length ∧
        readNode i (data.drop (headerSize + stride * i)) = readNode i (recordBytes data i) := by
  refine ⟨decode_isOk_iff, fun f => decode_eq_error_iff,
    fun f hf => (decode_eq_error_iff.mp hf).kind, fun s hs => ?_⟩
  obtain ⟨hheader, hcap, hnodes⟩ := decode_eq_ok hs
  refine ⟨hcap, hheader, fun i hi => ?_⟩
  rw [hcap] at hi
  rw [hnodes, if_pos hi]
  exact ⟨rfl, readNode_at_offset (headerOk_of_decode_eq_ok hs) hi⟩

def oneLeafBuffer : List UInt8 :=
  LittleEndian.encode 4 1 ++ List.replicate 16 0 ++ LittleEndian.encode 4 0 ++
    LittleEndian.encode 4 1 ++ List.replicate 4 0 ++
  (LittleEndian.encode 4 2 ++ List.replicate 4 0 ++ LittleEndian.encode 16 5 ++
    List.replicate 32 0 ++ LittleEndian.encode 8 10 ++ LittleEndian.encode 8 7)

def oneLeafSlab : Slab :=
  ⟨⟨1, 0, 0, 0, 1⟩, #[.leaf ⟨0, 0, 0, 5, List.replicate 32 0, 10, 7⟩]⟩

theorem oneLeafBuffer_reads_as_slab :
    decode oneLeafBuffer = .ok oneLeafSlab ∧ oneLeafSlab.capacity = 1 ∧
      oneLeafSlab.nodes[0]? = (readNode 0 (recordBytes oneLeafBuffer 0)).toOption := by
  have h : decode oneLeafBuffer = .ok oneLeafSlab := by rfl
  obtain ⟨-, -, hnodes⟩ := (decode_checks_in_order oneLeafBuffer).2.2.2 _ h
  exact ⟨h, rfl, (hnodes 0 (by decide)).1⟩

end Slab

end Clob
