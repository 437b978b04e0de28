import KS3.Foundations.PrefixCode
import KS3.DataIO.Messages

/-!
# The grammar of a data block

A data block is a sequence of messages, and `IsMessage` says what a message is without the parser:
a record of the length that goes with its id, or an application message whose size field counts
the octets behind its header. No message begins another one (`isMessage_free`).

`forMessages_parses`: where no header the parser comes to is cut off or has a size that wraps, the
loop over the messages takes the messages the data block begins with, as many as there are, one
behind the other, and stops at the end, at an unknown id or at a message that does not fit.
-/

namespace KS3.DataIO

open PrefixCode

/-! ## Messages -/

/-- The records, by their ids, and their lengths. -/
def records : List (UInt8 × ℕ) := [(0x10, 8), (0x11, 4), (0x12, 12), (0x13, 6)]

/-- The messages of the format. -/
inductive IsMessage : List UInt8 → Prop
  | record (id : UInt8) (body : List UInt8) (h : (id, body.length + 1) ∈ records) :
      IsMessage (id :: body)
  | app (sequenceNumber type₀ type₁ size₀ size₁ : UInt8) (data : List UInt8)
      (h : data.length = size₀.toNat + 256 * size₁.toNat) :
      IsMessage (0x80 :: sequenceNumber :: type₀ :: type₁ :: size₀ :: size₁ :: data)

theorem mem_records_iff (id : UInt8) (size : ℕ) :
    (id, size) ∈ records ↔ recordSize id = some size := by
  constructor
  · intro h
    simp only [records, List.mem_cons, Prod.mk.injEq, List.not_mem_nil, or_false] at h
    rcases h with ⟨rfl, rfl⟩ | ⟨rfl, rfl⟩ | ⟨rfl, rfl⟩ | ⟨rfl, rfl⟩ <;> rfl
  · intro h
    rw [recordSize] at h
    split_ifs at h with h₁ h₂ h₃ h₄
    all_goals
      cases h
      simp only [records, List.mem_cons, Prod.mk.injEq, and_true, *]
      decide

theorem app_not_mem_records (size : ℕ) : (0x80, size) ∉ records := by
  intro h
  simp [records] at h

theorem length_le_of_isMessage {bs : List UInt8} (h : IsMessage bs) : 4 ≤ bs.length := by
  cases h with
  | record id body h =>
    simp only [records, List.mem_cons, Prod.mk.injEq, List.not_mem_nil, or_false] at h
    rw [List.length_cons]
    omega
  | app => simp

theorem length_le_flatten_of_words {msgs : List (List UInt8)} (h : ∀ msg ∈ msgs, IsMessage msg) :
    4 * msgs.length ≤ msgs.flatten.length := by
  induction msgs with
  | nil => simp
  | cons msg msgs ih =>
    rw [List.forall_mem_cons] at h
    have hfirst := length_le_of_isMessage h.1
    have hrest := ih h.2
    rw [List.flatten_cons, List.length_append, List.length_cons]
    omega

/-- The length a message announces by its id and its size field. -/
def announced (bs : List UInt8) : ℕ :=
  if bs.getD 0 0 = 0x80 then 6 + (bs.getD 4 0).toNat + 256 * (bs.getD 5 0).toNat
  else (recordSize (bs.getD 0 0)).getD 0

/-- A message is as long as it announces, and it announces the same with octets behind it. -/
theorem announced_append {bs : List UInt8} (h : IsMessage bs) (t : List UInt8) :
    announced (bs ++ t) = bs.length := by
  cases h with
  | record id body h =>
    have hid : id ≠ 0x80 := by
      rintro rfl
      exact app_not_mem_records _ h
    have hsize := (mem_records_iff id (body.length + 1)).1 h
    simp only [announced, List.cons_append, List.getD_cons_zero, if_neg hid, hsize,
      Option.getD_some, List.length_cons]
  | app s t₀ t₁ z₀ z₁ data h =>
    have hvalue : announced (0x80 :: s :: t₀ :: t₁ :: z₀ :: z₁ :: data ++ t) =
        6 + z₀.toNat + 256 * z₁.toNat := rfl
    rw [hvalue]
    simp only [List.length_cons]
    omega

/-- **No message begins another one.** -/
theorem isMessage_free : Free IsMessage := by
  refine ⟨fun w hw hnil => ?_, fun u v hu hv hle => hle.eq_of_length ?_⟩
  · have hlength := length_le_of_isMessage hw
    rw [hnil] at hlength
    cases hlength
  · obtain ⟨t, rfl⟩ := hle
    have hlength := announced_append hv []
    rw [List.append_nil, announced_append hu] at hlength
    exact hlength

/-! ## Where parsing stops -/

/-- The id of no message. -/
def UnknownId (id : UInt8) : Prop := id ≠ 0x80 ∧ ∀ size, (id, size) ∉ records

/-- Nothing is left, an unknown id, or a part of a message that does not fit. -/
inductive Stops : List UInt8 → Prop
  | done : Stops []
  | unknown (id : UInt8) (bs : List UInt8) (h : UnknownId id) : Stops (id :: bs)
  | cut (bs missing : List UInt8) (h : IsMessage (bs ++ missing)) (hne : missing ≠ []) : Stops bs

theorem Stops.stuck {rest : List UInt8} (h : Stops rest) (w : List UInt8) (hw : IsMessage w) :
    ¬ w <+: rest := by
  intro hle
  cases h with
  | done => exact isMessage_free.ne_nil w hw (List.prefix_nil.1 hle)
  | unknown id bs h =>
    cases hw with
    | record id' body hmem =>
      obtain ⟨rfl, -⟩ := List.cons_prefix_cons.1 hle
      exact h.2 _ hmem
    | app =>
      obtain ⟨rfl, -⟩ := List.cons_prefix_cons.1 hle
      exact h.1 rfl
  | cut _ missing h hne =>
    have heq := isMessage_free.eq_of_prefix w _ hw h (hle.trans (List.prefix_append ..))
    have hlength := hle.length_le
    have hpos := List.length_pos_of_ne_nil hne
    rw [heq, List.length_append] at hlength
    omega

/-! ## The parser -/

namespace Layer3Rx

variable {m : Mem} {n i size : ℕ}

/-- The places of messages one behind the other. -/
def offsets : ℕ → List (List UInt8) → List ℕ
  | _, [] => []
  | i, msg :: msgs => i :: offsets (i + msg.length) msgs

@[simp] theorem length_offsets (i : ℕ) (msgs : List (List UInt8)) :
    (offsets i msgs).length = msgs.length := by
  induction msgs generalizing i with
  | nil => rfl
  | cons msg msgs ih => simp [offsets, ih]

/-- The octets of a message with a known size whose header does not wrap. -/
theorem isMessage_read (hsize : messageSize (m.shift i) = some size)
    (hwrap : m i = msgAppType → appDataSize (m.shift i) < 0xFFFA) : IsMessage (m.read i size) := by
  rw [messageSize] at hsize
  split_ifs at hsize with happ
  · have hlt := hwrap happ
    have hvalue : size = 6 + appDataSize (m.shift i) := by
      simp only [sizeofTMsgAppTypeHeader, Option.some.injEq] at hsize
      omega
    have hid : m i = 0x80 := happ
    have hread : m.read i size = 0x80 :: m (i + 1) :: m (i + 2) :: m (i + 3) :: m (i + 4) ::
        m (i + 5) :: m.read (i + 6) (appDataSize (m.shift i)) := by
      rw [hvalue, Mem.read_add, ← hid]
      rfl
    rw [hread]
    refine .app _ _ _ _ _ _ ?_
    rw [Mem.length_read, appDataSize, Mem.word, toNat_ofBytes]
    rfl
  · have hpos := recordSize_pos hsize
    obtain ⟨k, rfl⟩ := Nat.exists_eq_add_of_lt hpos
    rw [Nat.zero_add] at hsize ⊢
    rw [Mem.read_succ_eq_cons]
    refine .record _ _ ?_
    rw [Mem.length_read]
    exact (mem_records_iff _ _).2 hsize

theorem unknownId_of_none (h : messageSize (m.shift i) = none) : UnknownId (m i) := by
  rw [messageSize] at h
  split_ifs at h with happ
  refine ⟨happ, fun size hmem => ?_⟩
  rw [mem_records_iff] at hmem
  exact Option.some_ne_none _ (hmem.symm.trans h)

/-- What is left where the parser stops. -/
theorem stops_of_error (hlt : i < n) (hsize : messageSize (m.shift i) = some size)
    (hgt : n < i + size) (hwrap : m i = msgAppType → appDataSize (m.shift i) < 0xFFFA) :
    Stops (m.read i (n - i)) := by
  refine .cut _ (m.read n (i + size - n)) ?_ ?_
  · have hmessage := isMessage_read hsize hwrap
    have hcut := m.read_add i (n - i) (i + size - n)
    rw [Nat.add_sub_cancel' hlt.le] at hcut
    rwa [← hcut, show n - i + (i + size - n) = size by omega]
  · refine List.ne_nil_of_length_pos ?_
    rw [Mem.length_read]
    omega

variable {σ : Type*}

/-- **The loop takes the messages of the data block.** -/
theorem forMessages_parses (f : Mem → σ → σ) (hn : n < 2 ^ 16) (hok : HeadersOk m n)
    (hi : Reaches m n i) (hle : i ≤ n) (s : σ) {fuel : ℕ} (hfuel : n - i < fuel) :
    ∃ rc msgs rest, Parses IsMessage (m.read i (n - i)) msgs rest ∧ Stops rest ∧
      forMessages f fuel ⟨m, i, n⟩ s = some (rc, ⟨m, i + msgs.flatten.length, n⟩,
        (offsets i msgs).foldl (fun s j => f (m.shift j) s) s) := by
  induction fuel generalizing i s with
  | zero => omega
  | succ fuel ih =>
    rcases hle.eq_or_lt with rfl | hlt
    · refine ⟨-1, [], [], ?_, .done, forMessages_error (getMessagePtr_of_le le_rfl) fuel⟩
      rw [Nat.sub_self]
      exact .nil []
    have hwrap : m i = msgAppType → appDataSize (m.shift i) < 0xFFFA :=
      fun happ => (hok i hi hlt happ).2
    cases hsize : messageSize (m.shift i) with
    | none =>
      refine ⟨-2, [], m.read i (n - i), .nil _, ?_,
        forMessages_error (getMessagePtr_of_none hlt hsize) fuel⟩
      obtain ⟨k, hk⟩ : ∃ k, n - i = k + 1 := ⟨n - i - 1, by omega⟩
      rw [hk, Mem.read_succ_eq_cons]
      exact .unknown _ _ (unknownId_of_none hsize)
    | some size =>
      by_cases hin : i + size ≤ n
      · have hmessage := isMessage_read hsize hwrap
        have hpos := length_le_of_isMessage hmessage
        rw [Mem.length_read] at hpos
        obtain ⟨rc, msgs, rest, hparses, hstops, hloop⟩ :=
          ih (hi.next hlt hsize hin) hin (f (m.shift i) s) (by omega)
        refine ⟨rc, m.read i size :: msgs, rest, ?_, hstops, ?_⟩
        · have hcut := m.read_add i size (n - (i + size))
          rw [show size + (n - (i + size)) = n - i by omega] at hcut
          rw [hcut]
          exact hparses.cons hmessage
        · rw [forMessages_ok (getMessagePtr_mk hn hlt hsize hin), hloop, List.flatten_cons,
            List.length_append, Mem.length_read, Nat.add_assoc]
          simp only [offsets, List.foldl_cons, Mem.length_read]
      · exact ⟨-3, [], m.read i (n - i), .nil _, stops_of_error hlt hsize (by omega) hwrap,
          forMessages_error (getMessagePtr_of_gt hlt hsize (by omega)) fuel⟩

end Layer3Rx

end KS3.DataIO
