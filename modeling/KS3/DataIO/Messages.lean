import KS3.DataIO.Layer3

/-!
# The messages of a data block

`getMessagePtr` walks over a data block by the sizes it finds there. `Reaches` are the places it
comes to, as a property of the octets alone. The size of a message is a 16-bit sum, which is zero
for exactly one header: an application message with `dataSize = 0xFFFA`. Such a header makes the
walk stand still.

* `messages_end_iff`: the loop over the messages of a datagram, or of a received packet, ends and
  each of its successful steps shortens what is left, exactly when no place it comes to holds such
  a header;
* `forMessages_none`: otherwise no number of rounds suffices;
* `forMessages_congr`: where every header is complete, the loop depends only on the octets of the
  data block;
* `forMessages_flatten`: a block made of well-formed messages is taken apart into them;
* `forMessages_invariant`: what every message handed out keeps holds when the loop ends.
-/

namespace KS3.DataIO

/-! ## The walk -/

/-- The places of a data block of `n` octets at which the parser looks for a message. -/
inductive Reaches (m : Mem) (n : ℕ) : ℕ → Prop
  | start : Reaches m n 0
  | next {i size : ℕ} (hi : Reaches m n i) (hlt : i < n)
      (hsize : messageSize (m.shift i) = some size) (hle : i + size ≤ n) : Reaches m n (i + size)

/-- The header whose size is zero in 16 bits. -/
def StandsStill (msg : Mem) : Prop := msg 0 = msgAppType ∧ appDataSize msg = 0xFFFA

instance (msg : Mem) : Decidable (StandsStill msg) :=
  inferInstanceAs (Decidable (msg 0 = msgAppType ∧ appDataSize msg = 0xFFFA))

/-- No place the parser comes to holds such a header. -/
def NoStandstill (m : Mem) (n : ℕ) : Prop :=
  ∀ i, Reaches m n i → i < n → ¬ StandsStill (m.shift i)

theorem appDataSize_lt (msg : Mem) : appDataSize msg < 2 ^ 16 := UInt16.toNat_lt _

theorem recordSize_pos {id : UInt8} {size : ℕ} (h : recordSize id = some size) : 0 < size := by
  simp only [recordSize] at h
  split_ifs at h <;> simp at h <;> omega

theorem messageSize_eq_zero {msg : Mem} : messageSize msg = some 0 ↔ StandsStill msg := by
  have hlt := appDataSize_lt msg
  simp only [messageSize, StandsStill, sizeofTMsgAppTypeHeader]
  split
  · simp only [*, true_and, Option.some.injEq]
    omega
  · simp only [*, false_and, iff_false]
    intro h
    exact absurd (recordSize_pos h) (lt_irrefl _)

/-- The size of a message depends on its id and, for an application message, on the size field. -/
theorem messageSize_ext {msg msg' : Mem} (hid : msg 0 = msg' 0)
    (hword : msg 0 = msgAppType → msg.word 4 = msg'.word 4) :
    messageSize msg = messageSize msg' := by
  by_cases happ : msg 0 = msgAppType
  · rw [messageSize, messageSize, appDataSize, appDataSize, ← hid, hword happ]
  · rw [messageSize, messageSize, ← hid, if_neg happ, if_neg happ]

namespace Layer3Rx

variable {m : Mem} {n i size : ℕ}

theorem rxDataSize_mk (m : Mem) (i n : ℕ) : (Layer3Rx.mk m i n).rxDataSize = n - i := by
  simp only [rxDataSize]
  split <;> omega

/-- A message that fits is handed out. -/
theorem getMessagePtr_mk (hn : n < 2 ^ 16) (hi : i < n)
    (hsize : messageSize (m.shift i) = some size) (hle : i + size ≤ n) :
    getMessagePtr ⟨m, i, n⟩ = .ok (m.shift i, ⟨m, i + size, n⟩) := by
  have hmod : (i + size) % 2 ^ 16 = i + size := Nat.mod_eq_of_lt (by omega)
  rw [getMessagePtr, rxDataSize_mk, if_neg (by omega)]
  simp only [hsize, hmod]
  rw [if_neg (by omega)]

theorem getMessagePtr_of_le (hle : n ≤ i) : getMessagePtr ⟨m, i, n⟩ = .error (-1) := by
  rw [getMessagePtr, rxDataSize_mk, if_pos (by omega)]

theorem getMessagePtr_of_none (hi : i < n) (hsize : messageSize (m.shift i) = none) :
    getMessagePtr ⟨m, i, n⟩ = .error (-2) := by
  rw [getMessagePtr, rxDataSize_mk, if_neg (by omega)]
  simp only [hsize]

theorem getMessagePtr_of_gt (hi : i < n) (hsize : messageSize (m.shift i) = some size)
    (hgt : n < i + size) : getMessagePtr ⟨m, i, n⟩ = .error (-3) := by
  rw [getMessagePtr, rxDataSize_mk, if_neg (by omega)]
  simp only [hsize]
  rw [if_pos (by omega)]

/-- What a successful `getMessagePtr` does. -/
theorem getMessagePtr_inv {msg : Mem} {r : Layer3Rx} (hn : n < 2 ^ 16)
    (h : getMessagePtr ⟨m, i, n⟩ = .ok (msg, r)) :
    ∃ size, i < n ∧ messageSize (m.shift i) = some size ∧ i + size ≤ n ∧ msg = m.shift i ∧
      r = ⟨m, i + size, n⟩ := by
  rw [getMessagePtr, rxDataSize_mk] at h
  split_ifs at h with h₀
  split at h
  · cases h
  · rename_i size hsize
    split_ifs at h with hbig
    have hmod : (i + size) % 2 ^ 16 = i + size := Nat.mod_eq_of_lt (by omega)
    simp only [hmod, Except.ok.injEq, Prod.mk.injEq] at h
    exact ⟨size, by omega, hsize, by omega, h.1.symm, h.2.symm⟩

/-- The states a walk from `r` comes to. -/
inductive Visits (r : Layer3Rx) : Layer3Rx → Prop
  | start : Visits r r
  | next {r₁ r₂ : Layer3Rx} {msg : Mem} (h : Visits r r₁) (hok : r₁.getMessagePtr = .ok (msg, r₂)) :
      Visits r r₂

theorem reaches_of_visits (hn : n < 2 ^ 16) {r : Layer3Rx} (h : Visits ⟨m, 0, n⟩ r) :
    ∃ i, r = ⟨m, i, n⟩ ∧ Reaches m n i := by
  induction h with
  | start => exact ⟨0, rfl, .start⟩
  | next _ hok ih =>
    obtain ⟨i, rfl, hi⟩ := ih
    obtain ⟨size, hlt, hsize, hle, -, rfl⟩ := getMessagePtr_inv hn hok
    exact ⟨i + size, rfl, hi.next hlt hsize hle⟩

theorem visits_of_reaches (hn : n < 2 ^ 16) (h : Reaches m n i) :
    Visits ⟨m, 0, n⟩ ⟨m, i, n⟩ := by
  induction h with
  | start => exact .start
  | next _ hlt hsize hle ih => exact ih.next (getMessagePtr_mk hn hlt hsize hle)

/-! ## The loop -/

variable {σ τ : Type*} {h : Mem → σ → σ} {s : σ}

/-- Every successful `getMessagePtr` of the loop shortens what is left of the data block. -/
def Shortens (r : Layer3Rx) : Prop :=
  ∀ r₁ r₂ msg, Visits r r₁ → r₁.getMessagePtr = .ok (msg, r₂) → r₂.rxDataSize < r₁.rxDataSize

/-- The loop comes to its end. -/
def Ends (h : Mem → σ → σ) (r : Layer3Rx) (s : σ) : Prop := ∃ fuel, (forMessages h fuel r s).isSome

theorem forMessages_error {r : Layer3Rx} {rc : ℤ} (hrc : r.getMessagePtr = .error rc) (fuel : ℕ) :
    forMessages h (fuel + 1) r s = some (rc, r, s) := by
  simp only [forMessages, hrc]

theorem forMessages_ok {r r' : Layer3Rx} {msg : Mem} (hok : r.getMessagePtr = .ok (msg, r'))
    (fuel : ℕ) : forMessages h (fuel + 1) r s = forMessages h fuel r' (h msg s) := by
  simp only [forMessages, hok]

/-- Every message that is handed out of a data block has a property. -/
def Handed (P : Mem → Prop) (m : Mem) (n : ℕ) : Prop :=
  ∀ i size, Reaches m n i → i < n → messageSize (m.shift i) = some size → i + size ≤ n →
    P (m.shift i)

/-- The invariant rule of the loop: without a standstill it ends, and what every message handed out
keeps holds at the end. -/
theorem forMessages_invariant {P : Mem → Prop} {I : σ → Prop} (hn : n < 2 ^ 16)
    (hstill : NoStandstill m n) (hP : Handed P m n)
    (hstep : ∀ msg s, P msg → I s → I (h msg s)) (hi : Reaches m n i) (h₀ : I s) {fuel : ℕ}
    (hfuel : n - i < fuel) : ∃ o, forMessages h fuel ⟨m, i, n⟩ s = some o ∧ I o.2.2 := by
  induction fuel generalizing i s with
  | zero => omega
  | succ fuel ih =>
    cases hget : getMessagePtr ⟨m, i, n⟩ with
    | error rc => exact ⟨_, forMessages_error hget fuel, h₀⟩
    | ok out =>
      obtain ⟨msg, r'⟩ := out
      obtain ⟨size, hlt, hsize, hle, rfl, rfl⟩ := getMessagePtr_inv hn hget
      have hpos : size ≠ 0 := by
        rintro rfl
        exact hstill i hi hlt (messageSize_eq_zero.1 hsize)
      rw [forMessages_ok hget]
      exact ih (hi.next hlt hsize hle) (hstep _ _ (hP i size hi hlt hsize hle) h₀) (by omega)

/-- Without a standstill, one round for each octet left and one more are enough. -/
theorem forMessages_isSome (hn : n < 2 ^ 16) (hstill : NoStandstill m n) (hi : Reaches m n i)
    {fuel : ℕ} (hfuel : n - i < fuel) : (forMessages h fuel ⟨m, i, n⟩ s).isSome := by
  obtain ⟨o, ho, -⟩ := forMessages_invariant (P := fun _ => True) (I := fun _ => True) (h := h)
    (s := s) hn hstill (fun _ _ _ _ _ _ => trivial) (fun _ _ _ _ => trivial) hi trivial hfuel
  rw [ho]
  rfl

/-- At a standstill the loop goes round for ever. -/
theorem forMessages_standstill (hn : n < 2 ^ 16) (hlt : i < n) (hstill : StandsStill (m.shift i))
    (fuel : ℕ) : forMessages h fuel ⟨m, i, n⟩ s = none := by
  induction fuel generalizing s with
  | zero => rfl
  | succ fuel ih =>
    rw [forMessages_ok (getMessagePtr_mk hn hlt (messageSize_eq_zero.2 hstill) (by omega))]
    exact ih

/-- The loop meets what lies at the places it comes to. -/
theorem forMessages_none_of_reaches (hn : n < 2 ^ 16)
    (hnone : ∀ s fuel, forMessages h fuel ⟨m, i, n⟩ s = none) (hi : Reaches m n i) (s : σ)
    (fuel : ℕ) : forMessages h fuel ⟨m, 0, n⟩ s = none := by
  induction hi generalizing s fuel with
  | start => exact hnone s fuel
  | next _ hlt hsize hle ih =>
    refine ih (fun s fuel => ?_) s fuel
    cases fuel with
    | zero => rfl
    | succ fuel =>
      rw [forMessages_ok (getMessagePtr_mk hn hlt hsize hle)]
      exact hnone _ fuel

/-- **A reached standstill hangs the loop**: no number of rounds suffices. -/
theorem forMessages_none (hn : n < 2 ^ 16) (hstill : ¬ NoStandstill m n) (s : σ) (fuel : ℕ) :
    forMessages h fuel ⟨m, 0, n⟩ s = none := by
  simp only [NoStandstill, not_forall, not_not] at hstill
  obtain ⟨i, hi, hlt, hstill⟩ := hstill
  exact forMessages_none_of_reaches hn
    (fun _ fuel => forMessages_standstill hn hlt hstill fuel) hi s fuel

theorem ends_iff (hn : n < 2 ^ 16) : Ends h ⟨m, 0, n⟩ s ↔ NoStandstill m n := by
  constructor
  · rintro ⟨fuel, hsome⟩
    by_contra hstill
    rw [forMessages_none hn hstill] at hsome
    cases hsome
  · exact fun hstill => ⟨n - 0 + 1, forMessages_isSome hn hstill .start (Nat.lt_succ_self _)⟩

theorem shortens_iff (hn : n < 2 ^ 16) : Shortens ⟨m, 0, n⟩ ↔ NoStandstill m n := by
  constructor
  · intro hshort i hi hlt hstill
    have hget := getMessagePtr_mk hn hlt (messageSize_eq_zero.2 hstill) (by omega)
    exact absurd (hshort _ _ _ (visits_of_reaches hn hi) hget) (lt_irrefl _)
  · intro hstill r₁ r₂ msg hr₁ hget
    obtain ⟨i, rfl, hi⟩ := reaches_of_visits hn hr₁
    obtain ⟨size, hlt, hsize, hle, -, rfl⟩ := getMessagePtr_inv hn hget
    have hpos : size ≠ 0 := by
      rintro rfl
      exact hstill i hi hlt (messageSize_eq_zero.1 hsize)
    rw [rxDataSize_mk, rxDataSize_mk]
    omega

/-- **When message parsing ends.** For every datagram, and for every packet the receiver has
ready, the loop over its messages ends and each of its successful steps shortens the rest exactly
when no place the parser comes to holds an application header with `dataSize = 0xFFFA`. -/
theorem messages_end_iff (h : Mem → σ → σ) (s : σ) :
    (∀ (buffer : Mem) (n : UInt16),
      Ends h (setRxAppData buffer n) s ∧ Shortens (setRxAppData buffer n) ↔
        NoStandstill buffer n.toNat) ∧
    (∀ (r : Layer3Rx) (l : DataIOLayer2), l.state = .stPacketReady →
      (Ends h (r.readPacket l).1 s ∧ Shortens (r.readPacket l).1 ↔
        NoStandstill (l.packet.shift 10) l.dataSize)) := by
  constructor
  · intro buffer n
    rw [setRxAppData, ends_iff n.toNat_lt, shortens_iff n.toNat_lt, and_self]
  · intro r l hready
    have hn : l.dataSize < 2 ^ 16 := UInt16.toNat_lt _
    have hread : (r.readPacket l).1 = ⟨l.packet.shift 10, 0, l.dataSize⟩ := by
      rw [readPacket, DataIOLayer2.getRxDataPtr, if_pos hready]
    rw [hread, ends_iff hn, shortens_iff hn, and_self]

/-- A datagram of six octets that hangs the loop. -/
theorem not_ends_standstill :
    ¬ ((∃ fuel, (forMessages keepBytes fuel
        (setRxAppData (Mem.ofList [0x80, 0, 0, 0, 0xFA, 0xFF]) 6) []).isSome) ∧
      Shortens (setRxAppData (Mem.ofList [0x80, 0, 0, 0, 0xFA, 0xFF]) 6)) := by
  rintro ⟨⟨fuel, hsome⟩, -⟩
  have hnone : forMessages keepBytes fuel
      (setRxAppData (Mem.ofList [0x80, 0, 0, 0, 0xFA, 0xFF]) 6) [] = none :=
    forMessages_standstill (by decide) (by decide) (by decide) fuel
  rw [hnone] at hsome
  cases hsome

theorem noStandstill_of_forall (hall : ∀ i < n, ¬ StandsStill (m.shift i)) : NoStandstill m n :=
  fun i _ hlt => hall i hlt

/-- A receiver that has a packet with one `MsgParameterRead` ready. -/
def readyRead : DataIOLayer2 where
  errors := fun _ => 0
  packet := Mem.ofList [0xAA, 0x55, 9, 1, 4, 0, 0x4A, 0x97, 0, 0, 0x11, 1, 5, 0]
  state := .stPacketReady
  rxCrc16 := 0
  index := 14
  selfAddress := 9
  broadcastAddress := 0xFF
  enableDataIOLt := false

/-- A datagram with one `MsgParameterRead`, and the packet with it, are parsed to the end. -/
theorem messages_end_read :
    (Ends keepBytes (setRxAppData (Mem.ofList [0x11, 1, 5, 0]) 4) [] ∧
      Shortens (setRxAppData (Mem.ofList [0x11, 1, 5, 0]) 4)) ∧
    (Ends keepBytes ((setRxAppData (fun _ => 0) 0).readPacket readyRead).1 [] ∧
      Shortens ((setRxAppData (fun _ => 0) 0).readPacket readyRead).1) :=
  ⟨((messages_end_iff keepBytes []).1 _ 4).2 (noStandstill_of_forall (by decide)),
    ((messages_end_iff keepBytes []).2 _ readyRead rfl).2 (noStandstill_of_forall (by decide))⟩

/-! ## What the loop depends on -/

/-- Every application header the parser comes to is inside the data block, and its message has a
size below `2 ^ 16`. -/
def HeadersOk (m : Mem) (n : ℕ) : Prop :=
  ∀ i, Reaches m n i → i < n → m i = msgAppType →
    i + sizeofTMsgAppTypeHeader ≤ n ∧ appDataSize (m.shift i) < 0xFFFA

theorem HeadersOk.noStandstill (hok : HeadersOk m n) : NoStandstill m n := by
  rintro i hi hlt ⟨hid, hsize⟩
  have := (hok i hi hlt hid).2
  omega

/-- Two memories that agree on a data block agree on the sizes the parser finds in it. -/
theorem messageSize_congr {m' : Mem} (hagree : ∀ k < n, m k = m' k) (hok : HeadersOk m n)
    (hi : Reaches m n i) (hlt : i < n) : messageSize (m.shift i) = messageSize (m'.shift i) := by
  refine messageSize_ext (hagree i hlt) fun happ => ?_
  have hle := (hok i hi hlt happ).1
  simp only [sizeofTMsgAppTypeHeader] at hle
  simp only [Mem.word, Mem.shift_apply]
  rw [hagree (i + 4) (by omega), hagree (i + (4 + 1)) (by omega)]

/-- The octets of a message inside a data block on which two memories agree. -/
theorem messageBytes_congr {m' : Mem} (hagree : ∀ k < n, m k = m' k)
    (hsize : messageSize (m.shift i) = some size) (hsize' : messageSize (m'.shift i) = some size)
    (hle : i + size ≤ n) : messageBytes (m.shift i) = messageBytes (m'.shift i) := by
  rw [messageBytes, messageBytes, hsize, hsize']
  exact Mem.read_congr fun k hk => hagree _ (by simp only [Option.getD_some] at hk; omega)

/-- The result of the loop and the state of the handler. -/
def outcome (o : ℤ × Layer3Rx × σ) : ℤ × σ := (o.1, o.2.2)

/-- **The loop depends only on the octets of the data block**, for a handler that depends only on
the octets of its messages. -/
theorem forMessages_congr {m' : Mem} {g : List UInt8 → σ → σ} (hn : n < 2 ^ 16)
    (hagree : ∀ k < n, m k = m' k) (hok : HeadersOk m n) (hi : Reaches m n i) (s : σ)
    (fuel : ℕ) :
    (forMessages (fun msg => g (messageBytes msg)) fuel ⟨m, i, n⟩ s).map outcome =
      (forMessages (fun msg => g (messageBytes msg)) fuel ⟨m', i, n⟩ s).map outcome := by
  induction fuel generalizing i s with
  | zero => rfl
  | succ fuel ih =>
    by_cases hlt : i < n
    · have hagree' := messageSize_congr hagree hok hi hlt
      cases hsize : messageSize (m.shift i) with
      | none =>
        rw [forMessages_error (getMessagePtr_of_none hlt hsize),
          forMessages_error (getMessagePtr_of_none hlt (hagree' ▸ hsize))]
        rfl
      | some size =>
        have hsize' : messageSize (m'.shift i) = some size := hagree' ▸ hsize
        by_cases hle : i + size ≤ n
        · rw [forMessages_ok (getMessagePtr_mk hn hlt hsize hle),
            forMessages_ok (getMessagePtr_mk hn hlt hsize' hle),
            messageBytes_congr hagree hsize hsize' hle]
          exact ih (hi.next hlt hsize hle) _
        · rw [forMessages_error (getMessagePtr_of_gt hlt hsize (by omega)),
            forMessages_error (getMessagePtr_of_gt hlt hsize' (by omega))]
          rfl
    · rw [forMessages_error (getMessagePtr_of_le (by omega)),
        forMessages_error (getMessagePtr_of_le (by omega))]
      rfl

/-- What the handler keeps for any message holds when the loop ends, if it does. -/
theorem forMessages_keeps {I : σ → Prop} (hstep : ∀ msg s, I s → I (h msg s)) (h₀ : I s)
    {fuel : ℕ} {r : Layer3Rx} {o : ℤ × Layer3Rx × σ} (heq : forMessages h fuel r s = some o) :
    I o.2.2 := by
  induction fuel generalizing r s with
  | zero => cases heq
  | succ fuel ih =>
    cases hget : r.getMessagePtr with
    | error rc =>
      rw [forMessages_error hget] at heq
      cases heq
      exact h₀
    | ok out =>
      rw [forMessages_ok hget] at heq
      exact ih (hstep _ _ h₀) heq

/-- A translation of handler states that follows the handlers follows the loops. -/
theorem forMessages_map {g : Mem → τ → τ} (φ : σ → τ) (hφ : ∀ msg s, φ (h msg s) = g msg (φ s))
    (fuel : ℕ) (r : Layer3Rx) (s : σ) :
    forMessages g fuel r (φ s) =
      (forMessages h fuel r s).map fun o => (o.1, o.2.1, φ o.2.2) := by
  induction fuel generalizing r s with
  | zero => rfl
  | succ fuel ih =>
    cases hget : r.getMessagePtr with
    | error rc => rw [forMessages_error hget, forMessages_error hget]; rfl
    | ok out => rw [forMessages_ok hget, forMessages_ok hget, ← hφ, ih]

end Layer3Rx

/-! ## Blocks of well-formed messages -/

/-- The octets of one well-formed message: as many as its header says, in plain arithmetic. -/
structure Message where
  bytes : List UInt8
  size_eq : messageSize (Mem.ofList bytes) = some bytes.length
  header_le : Mem.ofList bytes 0 = msgAppType → sizeofTMsgAppTypeHeader ≤ bytes.length

namespace Message

variable {m : Mem} {i : ℕ}

theorem length_pos (a : Message) : 0 < a.bytes.length := by
  apply List.length_pos_of_ne_nil
  intro hnil
  have hsize := a.size_eq
  rw [hnil] at hsize
  exact absurd hsize (by decide)

theorem length_le_flatten (msgs : List Message) :
    msgs.length ≤ (msgs.map Message.bytes).flatten.length := by
  induction msgs with
  | nil => rfl
  | cons a msgs ih =>
    have hpos := a.length_pos
    rw [List.map_cons, List.flatten_cons, List.length_append, List.length_cons]
    omega

/-- A message that lies at a place of memory is found there by its size. -/
theorem messageSize_shift (a : Message) (hread : m.read i a.bytes.length = a.bytes) :
    messageSize (m.shift i) = some a.bytes.length := by
  have hoct : ∀ k < a.bytes.length, m.shift i k = Mem.ofList a.bytes k :=
    fun k hk => m.eq_getD_of_read hread hk
  rw [← a.size_eq]
  refine messageSize_ext (hoct 0 a.length_pos) fun happ => ?_
  have hle := a.header_le ((hoct 0 a.length_pos).symm.trans happ)
  simp only [sizeofTMsgAppTypeHeader] at hle
  rw [Mem.word, Mem.word, hoct 4 (by omega), hoct (4 + 1) (by omega)]

theorem messageBytes_shift (a : Message) (hread : m.read i a.bytes.length = a.bytes) :
    messageBytes (m.shift i) = a.bytes := by
  rw [messageBytes, a.messageSize_shift hread, Option.getD_some, Mem.read_shift, Nat.add_zero,
    hread]

theorem exists_cons {n : ℕ} {msgs : List Message} (hlt : i < n)
    (hread : m.read i (n - i) = (msgs.map Message.bytes).flatten) :
    ∃ a rest, msgs = a :: rest := by
  refine List.exists_cons_of_ne_nil ?_
  rintro rfl
  have hnil := congrArg List.length hread
  simp only [Mem.length_read, List.map_nil, List.flatten_nil, List.length_nil] at hnil
  omega

/-- A block of messages begins with the first one, and the others are behind it. -/
theorem read_cons {n : ℕ} {a : Message} {msgs : List Message}
    (hread : m.read i (n - i) = ((a :: msgs).map Message.bytes).flatten) :
    i + a.bytes.length ≤ n ∧ m.read i a.bytes.length = a.bytes ∧
      m.read (i + a.bytes.length) (n - (i + a.bytes.length)) =
        (msgs.map Message.bytes).flatten := by
  have hpos := a.length_pos
  have hlen := congrArg List.length hread
  rw [List.map_cons, List.flatten_cons] at hread hlen
  rw [Mem.length_read, List.length_append] at hlen
  have hsplit : n - i = a.bytes.length + (n - (i + a.bytes.length)) := by omega
  rw [hsplit, Mem.read_add] at hread
  exact ⟨by omega, List.append_inj hread (Mem.length_read ..)⟩

end Message

open Layer3Rx in
/-- **A block of well-formed messages is taken apart into them**, and then there is no more. -/
theorem forMessages_flatten {m : Mem} {n : ℕ} (hn : n < 2 ^ 16) (msgs : List Message) {i : ℕ}
    (hi : i + (msgs.map Message.bytes).flatten.length = n)
    (hread : m.read i (n - i) = (msgs.map Message.bytes).flatten) (acc : List (List UInt8))
    {fuel : ℕ} (hfuel : msgs.length < fuel) :
    forMessages keepBytes fuel ⟨m, i, n⟩ acc =
      some (-1, ⟨m, n, n⟩, acc ++ msgs.map Message.bytes) := by
  induction msgs generalizing i acc fuel with
  | nil =>
    obtain ⟨fuel, rfl⟩ := Nat.exists_eq_add_of_lt hfuel
    have hin : i = n := by simpa using hi
    subst hin
    rw [forMessages_error (getMessagePtr_of_le le_rfl)]
    simp
  | cons a msgs ih =>
    obtain ⟨fuel, rfl⟩ : ∃ k, fuel = k + 1 :=
      ⟨fuel - 1, by simp only [List.length_cons] at hfuel; omega⟩
    have hpos := a.length_pos
    obtain ⟨-, hfirst, hrest⟩ := Message.read_cons hread
    simp only [List.map_cons, List.flatten_cons, List.length_append] at hi
    rw [forMessages_ok (getMessagePtr_mk hn (by omega) (a.messageSize_shift hfirst) (by omega)),
      ih (by omega) hrest _ (by simpa using hfuel), keepBytes, a.messageBytes_shift hfirst]
    simp

/-- The places the parser comes to in such a block are where the messages begin. -/
theorem reaches_flatten {m : Mem} {n : ℕ} {msgs : List Message}
    (hread : m.read 0 n = (msgs.map Message.bytes).flatten) {i : ℕ} (hi : Reaches m n i) :
    ∃ as bs, msgs = as ++ bs ∧ m.read i (n - i) = (bs.map Message.bytes).flatten := by
  induction hi with
  | start => exact ⟨[], msgs, rfl, hread⟩
  | @next i size _ hlt hsize hle ih =>
    obtain ⟨as, bs, hmsgs, hbs⟩ := ih
    obtain ⟨b, bs, rfl⟩ := Message.exists_cons hlt hbs
    obtain ⟨-, hfirst, hrest⟩ := Message.read_cons hbs
    have hsize' : size = b.bytes.length :=
      Option.some.inj (hsize.symm.trans (b.messageSize_shift hfirst))
    rw [hsize']
    exact ⟨as ++ [b], bs, by simp [hmsgs], hrest⟩

/-- What is handed out of such a block are its messages. -/
theorem handed_flatten {m : Mem} {n : ℕ} {msgs : List Message} {P : Mem → Prop}
    (hread : m.read 0 n = (msgs.map Message.bytes).flatten)
    (hP : ∀ a ∈ msgs, ∀ i, m.read i a.bytes.length = a.bytes → P (m.shift i)) :
    Layer3Rx.Handed P m n := by
  intro i size hi hlt _ _
  obtain ⟨as, bs, rfl, hbs⟩ := reaches_flatten hread hi
  obtain ⟨b, bs, rfl⟩ := Message.exists_cons hlt hbs
  exact hP b (by simp) i (Message.read_cons hbs).2.1

end KS3.DataIO
