import KS3.DataIO.Layer2

/-!
# The stores of the receiver

`rxHandler` never compares its index with the size of the packet buffer. What keeps the index
down is the size field: once a header is accepted, the index runs from the end of the header to
`dataSize + 10`, where an equality test ends the packet. The test is made after an octet of data
is stored, so it is passed over by a packet without data: for such a header the index goes on
past the buffer.

`inBounds_of_no_emptyFrame` is the positive half: along every run that accepts no header with
`dataSize = 0`, every store is inside the buffer. `store_past_packet` is the negative one: after
such a header is accepted, 247 more octets make a store outside.
-/

namespace KS3.DataIO.DataIOLayer2

open Comm

variable {l : DataIOLayer2} {b : UInt8}

/-! ## The invariant -/

/-- What bounds the index, state by state. -/
structure Bounded (l : DataIOLayer2) : Prop where
  header : l.state = .stRxHeader → l.index < 8
  crc0 : l.state = .stCRC0 → l.index = 8 ∧ 0 < l.dataSize ∧ l.dataSize ≤ 244
  crc1 : l.state = .stCRC1 → l.index = 9 ∧ 0 < l.dataSize ∧ l.dataSize ≤ 244
  data : l.state = .stRxData → 10 ≤ l.index ∧ l.index < l.dataSize + 10 ∧ l.dataSize ≤ 244

/-- The call completes a header without data, and the header is accepted: its CRC is right and it
is addressed to this device. -/
def AcceptsEmptyFrame (l : DataIOLayer2) : RxCall → Prop
  | .rxHandler b => l.state = .stRxHeader ∧ l.index = 7 ∧ l.dataSize = 0 ∧
      ofBytes (l.packet 6) b = l.rxCrc16 ∧
      (l.destAddress = l.selfAddress ∨ l.destAddress = l.broadcastAddress)
  | _ => False

instance (l : DataIOLayer2) (c : RxCall) : Decidable (l.AcceptsEmptyFrame c) :=
  match c with
  | .rxHandler b => inferInstanceAs (Decidable (l.state = .stRxHeader ∧ l.index = 7 ∧
      l.dataSize = 0 ∧ ofBytes (l.packet 6) b = l.rxCrc16 ∧
      (l.destAddress = l.selfAddress ∨ l.destAddress = l.broadcastAddress)))
  | .startRx => inferInstanceAs (Decidable False)
  | .setPreambleRecieved => inferInstanceAs (Decidable False)
  | .configure _ _ => inferInstanceAs (Decidable False)

/-- A receiver at rest is bounded, whatever its index. -/
theorem bounded_of_state (h : l.state = .stWait ∨ l.state = .stPreamble2 ∨
    l.state = .stPacketReady) : l.Bounded := by
  constructor <;> intro hs <;> simp [hs] at h

theorem bounded_startRx (l : DataIOLayer2) : l.startRx.Bounded := bounded_of_state (.inl rfl)

/-- A store past the size field leaves it. -/
theorem dataSize_push (h : 6 ≤ l.index) (b : UInt8) : (l.push b).dataSize = l.dataSize := by
  simp only [dataSize, push, Mem.word]
  rw [Mem.store_of_ne _ (by omega), Mem.store_of_ne _ (by omega)]

theorem index_push (h : l.index < 2 ^ 16 - 1) (b : UInt8) : (l.push b).index = l.index + 1 :=
  Nat.mod_eq_of_lt (by omega)

/-! ## One call keeps it -/

theorem bounded_rxData (hs : l.state = .stRxData) (h : l.Bounded) : (l.rxData b).2.Bounded := by
  obtain ⟨hlo, hhi, hsz⟩ := h.data hs
  have hi : (l.rxDataByte b).index = l.index + 1 := index_push (by omega) b
  have hd : (l.rxDataByte b).dataSize = l.dataSize := dataSize_push (by omega) b
  unfold rxData
  split
  · unfold endData
    split
    · exact bounded_of_state (.inr (.inr rfl))
    · exact bounded_startRx _
  · -- the packet is not complete, so the next index still belongs to it
    rename_i hne
    simp only [sizeofLR2Header] at hne
    have hstate : (l.rxDataByte b).state = .stRxData := hs
    have hdata : 10 ≤ (l.rxDataByte b).index ∧
        (l.rxDataByte b).index < (l.rxDataByte b).dataSize + 10 ∧
        (l.rxDataByte b).dataSize ≤ 244 := by omega
    constructor <;> intro hs' <;> first | exact hdata | simp [hstate] at hs'

/-- An accepted header has data, if the call does not accept a header without. -/
theorem dataSize_pos (hs : l.state = .stRxHeader) (hi : l.index = 7)
    (hc : ¬ l.AcceptsEmptyFrame (.rxHandler b))
    (hcrc : (l.rxHeaderByte b).rxCrc16 = (l.rxHeaderByte b).headerCrc16)
    (haddr : (l.rxHeaderByte b).destAddress = l.selfAddress ∨
      (l.rxHeaderByte b).destAddress = l.broadcastAddress) : 0 < l.dataSize := by
  apply Nat.pos_of_ne_zero
  intro h0
  apply hc
  refine ⟨hs, hi, h0, ?_, ?_⟩
  · simp only [rxHeaderByte, headerCrc16, push, Mem.word, hi, sizeofLR2Header] at hcrc
    rw [Mem.store_self, Mem.store_of_ne _ (by omega)] at hcrc
    simpa using hcrc.symm
  · simp only [rxHeaderByte, destAddress, push, hi] at haddr
    rwa [Mem.store_of_ne _ (by omega)] at haddr

theorem bounded_rxHeader (hs : l.state = .stRxHeader) (h : l.Bounded)
    (hc : ¬ l.AcceptsEmptyFrame (.rxHandler b)) : (l.rxHeader b).2.Bounded := by
  have hlt := h.header hs
  have hi : (l.rxHeaderByte b).index = l.index + 1 := index_push (by omega) b
  unfold rxHeader
  split
  · rename_i h8
    have h7 : l.index = 7 := by simp only [sizeofLR2Header] at h8; omega
    have hd : (l.rxHeaderByte b).dataSize = l.dataSize := dataSize_push (by omega) b
    unfold endHeader
    split_ifs with hsz hcrc haddr
    · exact bounded_startRx _
    · have hpos := dataSize_pos hs h7 hc hcrc haddr
      simp only [maxLayer2DataSize] at hsz
      have hcrc0 : (l.rxHeaderByte b).index = 8 ∧ 0 < (l.rxHeaderByte b).dataSize ∧
          (l.rxHeaderByte b).dataSize ≤ 244 := by omega
      constructor <;> intro hs' <;> first | exact hcrc0 | cases hs'
    · exact bounded_startRx _
    · exact bounded_startRx _
  · rename_i h8
    have hhdr : (l.rxHeaderByte b).index < 8 := by simp only [sizeofLR2Header] at h8; omega
    have hstate : (l.rxHeaderByte b).state = .stRxHeader := hs
    constructor <;> intro hs' <;> first | exact hhdr | simp [hstate] at hs'

theorem bounded_rxHandler (h : l.Bounded) (hc : ¬ l.AcceptsEmptyFrame (.rxHandler b)) :
    (l.rxHandler b).layer2.Bounded := by
  unfold rxHandler
  split
  case h_1 hs => exact h
  case h_2 hs => exact bounded_rxData hs h
  case h_3 hs =>
    unfold rxWait
    split
    · exact bounded_of_state (.inr (.inl rfl))
    · exact h
  case h_4 hs =>
    unfold rxPreamble2
    split
    · constructor <;> intro hs' <;> first | exact Nat.lt_of_sub_eq_succ rfl | cases hs'
    · exact bounded_startRx _
  case h_5 hs => exact bounded_rxHeader hs h hc
  case h_6 hs =>
    obtain ⟨hi, hpos, hsz⟩ := h.crc0 hs
    have hi' : (l.push b).index = l.index + 1 := index_push (by omega) b
    have hd : (l.push b).dataSize = l.dataSize := dataSize_push (by omega) b
    have hcrc1 : (l.push b).index = 9 ∧ 0 < (l.push b).dataSize ∧ (l.push b).dataSize ≤ 244 := by
      omega
    constructor <;> intro hs' <;> first | exact hcrc1 | cases hs'
  case h_7 hs =>
    obtain ⟨hi, hpos, hsz⟩ := h.crc1 hs
    have hi' : (l.push b).index = l.index + 1 := index_push (by omega) b
    have hd : (l.push b).dataSize = l.dataSize := dataSize_push (by omega) b
    have hdata : 10 ≤ (l.push b).index ∧ (l.push b).index < (l.push b).dataSize + 10 ∧
        (l.push b).dataSize ≤ 244 := by omega
    constructor <;> intro hs' <;> first | exact hdata | cases hs'

theorem bounded_call {c : RxCall} (h : l.Bounded) (hc : ¬ l.AcceptsEmptyFrame c) :
    (l.call c).Bounded := by
  cases c with
  | rxHandler b => exact bounded_rxHandler h hc
  | startRx => exact bounded_startRx l
  | setPreambleRecieved =>
    constructor <;> intro hs' <;> first | exact Nat.lt_of_sub_eq_succ rfl | cases hs'
  | configure a₁ a₂ => exact ⟨h.header, h.crc0, h.crc1, h.data⟩

/-- The only stores are to the octets `0` and `1` of the preamble and to the index. -/
theorem store_rxHandler (l : DataIOLayer2) (b : UInt8) {i : ℕ}
    (hi : i ∈ (l.rxHandler b).store) : i = 0 ∨ i = 1 ∨ i = l.index ∧
      (l.state = .stRxHeader ∨ l.state = .stCRC0 ∨ l.state = .stCRC1 ∨ l.state = .stRxData) := by
  unfold rxHandler at hi
  split at hi <;> rename_i hs
  · simp at hi
  · simp_all
  · unfold rxWait at hi
    split at hi <;> simp_all
  · unfold rxPreamble2 at hi
    split at hi <;> simp_all
  · simp_all
  · simp_all
  · simp_all

theorem inBounds_of_bounded (h : l.Bounded) (c : RxCall) : l.InBounds c := by
  intro i hi
  cases c with
  | rxHandler b =>
    simp only [sizeofLR2Packet, sizeofLR2Header, maxLayer2DataSize]
    rcases store_rxHandler l b hi with rfl | rfl | ⟨rfl, hs | hs | hs | hs⟩
    · omega
    · omega
    · have := h.header hs; omega
    · have := h.crc0 hs; omega
    · have := h.crc1 hs; omega
    · have := h.data hs; omega
  | startRx => cases hi
  | setPreambleRecieved => cases hi
  | configure a₁ a₂ => cases hi

/-- **The receiver stays inside its buffer** along every run of calls, from construction on, that
accepts no header without data. -/
theorem inBounds_of_no_emptyFrame (l : DataIOLayer2) (calls : List RxCall)
    (h : ∀ m ∈ Run.steps call l.construct calls, ¬ m.1.AcceptsEmptyFrame m.2) :
    ∀ m ∈ Run.steps call l.construct calls, m.1.InBounds m.2 := by
  have hinv := Run.invariant_steps (I := Bounded) (fun s c hs hc => bounded_call hs hc)
    (bounded_of_state (l := l.construct) (.inl rfl)) h
  exact fun m hm => inBounds_of_bounded (hinv m hm) m.2

/-! ## A header without data -/

/-- In a packet without data the test for the end of the packet never succeeds: the index has
left `10` behind when it is made. -/
theorem rxHandler_emptyFrame (hs : l.state = .stRxData) (hd : l.dataSize = 0) (hlo : 10 ≤ l.index)
    (hhi : l.index < 2 ^ 16 - 1) (b : UInt8) :
    (l.rxHandler b).layer2.state = .stRxData ∧ (l.rxHandler b).layer2.dataSize = 0 ∧
      (l.rxHandler b).layer2.index = l.index + 1 := by
  have hi : (l.rxDataByte b).index = l.index + 1 := index_push hhi b
  have hd' : (l.rxDataByte b).dataSize = 0 := (dataSize_push (by omega) b).trans hd
  have hne : ¬ (l.rxDataByte b).index = (l.rxDataByte b).dataSize + sizeofLR2Header + 2 := by
    simp only [sizeofLR2Header]
    omega
  rw [rxHandler_stRxData b hs, rxData, if_neg hne]
  exact ⟨hs, hd', hi⟩

/-- The receiver fills memory for as long as octets come. -/
theorem final_emptyFrame (bs : List UInt8) (hs : l.state = .stRxData) (hd : l.dataSize = 0)
    (hlo : 10 ≤ l.index) (hhi : l.index + bs.length < 2 ^ 16) :
    (Run.final call l (bs.map .rxHandler)).state = .stRxData ∧
      (Run.final call l (bs.map .rxHandler)).index = l.index + bs.length := by
  induction bs generalizing l with
  | nil => exact ⟨hs, rfl⟩
  | cons b bs ih =>
    simp only [List.length_cons] at hhi
    obtain ⟨hs', hd', hi'⟩ := rxHandler_emptyFrame hs hd hlo (by omega) b
    have h := ih (l := (l.rxHandler b).layer2) hs' hd' (by omega) (by omega)
    simp only [List.map_cons, Run.final_cons, List.length_cons, call]
    rw [hi'] at h
    exact ⟨h.1, by omega⟩

/-- The last octet of an accepted header without data. -/
theorem rxHandler_acceptsEmptyFrame (h : l.AcceptsEmptyFrame (.rxHandler b)) :
    (l.rxHandler b).layer2.state = .stCRC0 ∧ (l.rxHandler b).layer2.index = 8 ∧
      (l.rxHandler b).layer2.dataSize = 0 := by
  obtain ⟨hs, h7, hd, hcrc, haddr⟩ := h
  have hi : (l.rxHeaderByte b).index = 8 := (index_push (by omega) b).trans (by omega)
  have hd' : (l.rxHeaderByte b).dataSize = 0 := (dataSize_push (by omega) b).trans hd
  have hcrc' : (l.rxHeaderByte b).rxCrc16 = (l.rxHeaderByte b).headerCrc16 := by
    simp only [rxHeaderByte, headerCrc16, push, Mem.word, h7, sizeofLR2Header]
    rw [Mem.store_self, Mem.store_of_ne _ (by omega)]
    simpa using hcrc.symm
  have haddr' : (l.rxHeaderByte b).destAddress = (l.rxHeaderByte b).selfAddress ∨
      (l.rxHeaderByte b).destAddress = (l.rxHeaderByte b).broadcastAddress := by
    simp only [rxHeaderByte, destAddress, push, h7]
    rwa [Mem.store_of_ne _ (by omega)]
  have hsz : ¬ (l.rxHeaderByte b).dataSize > maxLayer2DataSize := by
    simp only [maxLayer2DataSize]
    omega
  rw [rxHandler_stRxHeader b hs, rxHeader, if_pos (show _ = sizeofLR2Header from hi), endHeader,
    if_neg hsz, if_pos hcrc', if_pos haddr']
  exact ⟨rfl, hi, hd'⟩

/-- The two octets of the data CRC after a header without data. -/
theorem rxHandler_emptyFrame_crc (b₀ b₁ : UInt8) (hs : l.state = .stCRC0) (hi : l.index = 8)
    (hd : l.dataSize = 0) :
    ((l.rxHandler b₀).layer2.rxHandler b₁).layer2.state = .stRxData ∧
      ((l.rxHandler b₀).layer2.rxHandler b₁).layer2.dataSize = 0 ∧
      ((l.rxHandler b₀).layer2.rxHandler b₁).layer2.index = 10 := by
  have hi₁ : (l.push b₀).index = 9 := (index_push (by omega) b₀).trans (by omega)
  have hd₁ : (l.push b₀).dataSize = 0 := (dataSize_push (by omega) b₀).trans hd
  rw [rxHandler_stCRC0 b₀ hs, rxHandler_stCRC1 b₁ rfl]
  refine ⟨rfl, ?_, ?_⟩
  · exact (dataSize_push (l := { l.push b₀ with state := .stCRC1 }) (by simp [hi₁]) b₁).trans hd₁
  · exact (index_push (l := { l.push b₀ with state := .stCRC1 }) (by simp [hi₁]) b₁).trans
      (by simp [hi₁])

/-- **After a header without data is accepted, the 247th further octet is stored past the end of
the packet**, whatever the octets are. -/
theorem store_past_packet (h : l.AcceptsEmptyFrame (.rxHandler b)) (b₀ b₁ : UInt8)
    (bs : List UInt8) (hbs : bs.length = 244) (b' : UInt8) :
    (Run.final call l ((b :: b₀ :: b₁ :: bs).map .rxHandler)).callStore (.rxHandler b') =
      some sizeofLR2Packet := by
  obtain ⟨hs₀, hi₀, hd₀⟩ := rxHandler_acceptsEmptyFrame h
  obtain ⟨hs₁, hd₁, hi₁⟩ := rxHandler_emptyFrame_crc b₀ b₁ hs₀ hi₀ hd₀
  obtain ⟨hs₂, hi₂⟩ := final_emptyFrame bs hs₁ hd₁ (by omega) (by omega)
  have hfinal : Run.final call l ((b :: b₀ :: b₁ :: bs).map .rxHandler) =
      Run.final call (((l.rxHandler b).layer2.rxHandler b₀).layer2.rxHandler b₁).layer2
        (bs.map .rxHandler) := rfl
  rw [hfinal, callStore, rxHandler_stRxData b' hs₂, hi₂, hi₁, hbs]
  rfl

/-- So no run goes on like that within the buffer. -/
theorem not_inBounds_of_acceptsEmptyFrame {l₀ : DataIOLayer2} {calls : List RxCall}
    (h : (Run.final call l₀ calls).AcceptsEmptyFrame (.rxHandler b)) (b₀ b₁ : UInt8)
    (bs : List UInt8) (hbs : bs.length = 244) (b' : UInt8) :
    ¬ ∀ m ∈ Run.steps call l₀ (calls ++
      ((b :: b₀ :: b₁ :: bs).map .rxHandler ++ [.rxHandler b'])), m.1.InBounds m.2 := by
  intro hall
  rw [← List.append_assoc] at hall
  have hlast := hall _ (Run.mem_steps_append_cons call _ _ _ [])
  rw [Run.final_append] at hlast
  exact absurd (hlast _ (store_past_packet h b₀ b₁ bs hbs b')) (lt_irrefl _)

/-- A receiver on memory that holds zeros. -/
def blank : DataIOLayer2 where
  errors := fun _ => 0
  packet := fun _ => 0
  state := .stWait
  rxCrc16 := 0
  index := 0
  selfAddress := 0
  broadcastAddress := 0
  enableDataIOLt := false

/-- The calls that receive the header of a frame without data, from station 1 to station 9, up to
its last octet. -/
def emptyFrameCalls : List RxCall :=
  .configure 9 0xFF :: [0xAA, 0x55, 9, 1, 0, 0, 0x4A].map .rxHandler

/-- The last octet of that header, two octets for the data CRC and 245 zeros behind it make the
receiver store past the end of its packet. -/
theorem not_inBounds_emptyFrame :
    ¬ ∀ m ∈ Run.steps call blank.construct (emptyFrameCalls ++
      ((0x93 :: 0 :: 0 :: List.replicate 244 0).map .rxHandler ++ [.rxHandler 0])),
      m.1.InBounds m.2 := by
  apply not_inBounds_of_acceptsEmptyFrame _ _ _ _ (List.length_replicate ..)
  refine ⟨?_, ?_, ?_, ?_, .inl ?_⟩ <;> decide +kernel

/-- The calls that receive a frame with one octet of data. -/
def smallFrameCalls : List RxCall :=
  .configure 9 0xFF :: [0xAA, 0x55, 9, 1, 1, 0, 0x4A, 0x92, 0xF7, 0xE1, 7].map .rxHandler

/-- That frame is received inside the buffer. -/
theorem inBounds_smallFrame :
    (∀ m ∈ Run.steps call blank.construct smallFrameCalls, ¬ m.1.AcceptsEmptyFrame m.2) ∧
      ∀ m ∈ Run.steps call blank.construct smallFrameCalls, m.1.InBounds m.2 := by
  have hcond : ∀ m ∈ Run.steps call blank.construct smallFrameCalls,
      ¬ m.1.AcceptsEmptyFrame m.2 := by decide +kernel
  exact ⟨hcond, inBounds_of_no_emptyFrame blank smallFrameCalls hcond⟩

end KS3.DataIO.DataIOLayer2
