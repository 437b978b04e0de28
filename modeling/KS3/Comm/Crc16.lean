import KS3.Foundations.Memory

/-!
# The CRC of the frame format

The table-driven CRC of `CRC16.C`: `updateCRC16` is one step of it, as the function of that name
and the macro `UPDATE_CRC16` compute it, and `calcBlockCRC16i` the loop over a block. The octet
enters at the low end of the register, so the value of a block is its remainder without the
trailing sixteen zero bits of the usual variant.

The high octet of the register chooses the entry of the table, the low one moves up and the new
octet takes its place (`hiByte_updateCRC16`, `loByte_updateCRC16`). An entry can be told from its
low octet (`octetOfEntry_loByte`), so nothing that is in the register is ever lost:

* `calcBlockCRC16i_injective`: blocks taken from different registers end in different ones;
* `calcBlockCRC16i_ne`: a block and the block with one octet, or two octets next to each other,
  changed have different CRCs.
-/

namespace KS3.Comm

/-- `Crc16Table`, copied from the source. -/
def crc16Table : List UInt16 := [
  0x0000, 0x1021, 0x2042, 0x3063, 0x4084, 0x50a5, 0x60c6, 0x70e7,
  0x8108, 0x9129, 0xa14a, 0xb16b, 0xc18c, 0xd1ad, 0xe1ce, 0xf1ef,
  0x1231, 0x0210, 0x3273, 0x2252, 0x52b5, 0x4294, 0x72f7, 0x62d6,
  0x9339, 0x8318, 0xb37b, 0xa35a, 0xd3bd, 0xc39c, 0xf3ff, 0xe3de,
  0x2462, 0x3443, 0x0420, 0x1401, 0x64e6, 0x74c7, 0x44a4, 0x5485,
  0xa56a, 0xb54b, 0x8528, 0x9509, 0xe5ee, 0xf5cf, 0xc5ac, 0xd58d,
  0x3653, 0x2672, 0x1611, 0x0630, 0x76d7, 0x66f6, 0x5695, 0x46b4,
  0xb75b, 0xa77a, 0x9719, 0x8738, 0xf7df, 0xe7fe, 0xd79d, 0xc7bc,
  0x48c4, 0x58e5, 0x6886, 0x78a7, 0x0840, 0x1861, 0x2802, 0x3823,
  0xc9cc, 0xd9ed, 0xe98e, 0xf9af, 0x8948, 0x9969, 0xa90a, 0xb92b,
  0x5af5, 0x4ad4, 0x7ab7, 0x6a96, 0x1a71, 0x0a50, 0x3a33, 0x2a12,
  0xdbfd, 0xcbdc, 0xfbbf, 0xeb9e, 0x9b79, 0x8b58, 0xbb3b, 0xab1a,
  0x6ca6, 0x7c87, 0x4ce4, 0x5cc5, 0x2c22, 0x3c03, 0x0c60, 0x1c41,
  0xedae, 0xfd8f, 0xcdec, 0xddcd, 0xad2a, 0xbd0b, 0x8d68, 0x9d49,
  0x7e97, 0x6eb6, 0x5ed5, 0x4ef4, 0x3e13, 0x2e32, 0x1e51, 0x0e70,
  0xff9f, 0xefbe, 0xdfdd, 0xcffc, 0xbf1b, 0xaf3a, 0x9f59, 0x8f78,
  0x9188, 0x81a9, 0xb1ca, 0xa1eb, 0xd10c, 0xc12d, 0xf14e, 0xe16f,
  0x1080, 0x00a1, 0x30c2, 0x20e3, 0x5004, 0x4025, 0x7046, 0x6067,
  0x83b9, 0x9398, 0xa3fb, 0xb3da, 0xc33d, 0xd31c, 0xe37f, 0xf35e,
  0x02b1, 0x1290, 0x22f3, 0x32d2, 0x4235, 0x5214, 0x6277, 0x7256,
  0xb5ea, 0xa5cb, 0x95a8, 0x8589, 0xf56e, 0xe54f, 0xd52c, 0xc50d,
  0x34e2, 0x24c3, 0x14a0, 0x0481, 0x7466, 0x6447, 0x5424, 0x4405,
  0xa7db, 0xb7fa, 0x8799, 0x97b8, 0xe75f, 0xf77e, 0xc71d, 0xd73c,
  0x26d3, 0x36f2, 0x0691, 0x16b0, 0x6657, 0x7676, 0x4615, 0x5634,
  0xd94c, 0xc96d, 0xf90e, 0xe92f, 0x99c8, 0x89e9, 0xb98a, 0xa9ab,
  0x5844, 0x4865, 0x7806, 0x6827, 0x18c0, 0x08e1, 0x3882, 0x28a3,
  0xcb7d, 0xdb5c, 0xeb3f, 0xfb1e, 0x8bf9, 0x9bd8, 0xabbb, 0xbb9a,
  0x4a75, 0x5a54, 0x6a37, 0x7a16, 0x0af1, 0x1ad0, 0x2ab3, 0x3a92,
  0xfd2e, 0xed0f, 0xdd6c, 0xcd4d, 0xbdaa, 0xad8b, 0x9de8, 0x8dc9,
  0x7c26, 0x6c07, 0x5c64, 0x4c45, 0x3ca2, 0x2c83, 0x1ce0, 0x0cc1,
  0xef1f, 0xff3e, 0xcf5d, 0xdf7c, 0xaf9b, 0xbfba, 0x8fd9, 0x9ff8,
  0x6e17, 0x7e36, 0x4e55, 0x5e74, 0x2e93, 0x3eb2, 0x0ed1, 0x1ef0]

/-- `UpdateCRC16` and `UPDATE_CRC16`: shift one octet into the register. -/
def updateCRC16 (octet : UInt8) (crc : UInt16) : UInt16 :=
  crc16Table.getD ((crc >>> 8) &&& 255).toNat 0 ^^^ (crc <<< 8) ^^^ octet.toUInt16

/-- `calcBlockCRC16i`: the register after the octets of a block. -/
def calcBlockCRC16i (data : List UInt8) (initCRC : UInt16) : UInt16 :=
  data.foldl (fun crc octet => updateCRC16 octet crc) initCRC

@[simp] theorem calcBlockCRC16i_nil (initCRC : UInt16) : calcBlockCRC16i [] initCRC = initCRC := rfl

/-- The register after a block and one more octet: what a receiver that updates its register
octet by octet holds. -/
theorem calcBlockCRC16i_concat (data : List UInt8) (octet : UInt8) (initCRC : UInt16) :
    calcBlockCRC16i (data ++ [octet]) initCRC =
      updateCRC16 octet (calcBlockCRC16i data initCRC) := by
  simp [calcBlockCRC16i]

theorem calcBlockCRC16i_cons (octet : UInt8) (data : List UInt8) (initCRC : UInt16) :
    calcBlockCRC16i (octet :: data) initCRC = calcBlockCRC16i data (updateCRC16 octet initCRC) :=
  rfl

/-! ## The two octets of the register -/

section Register

variable (octet : UInt8) (crc : UInt16)

theorem loByte_eq : loByte crc = crc.toUInt8 := by
  apply UInt8.toNat_inj.1
  simp [loByte]

theorem hiByte_eq : hiByte crc = (crc >>> 8).toUInt8 := by
  apply UInt8.toNat_inj.1
  simp [hiByte, Nat.shiftRight_eq_div_pow]

/-- The entry of the table for an octet. -/
def crc16Entry (octet : UInt8) : UInt16 := crc16Table.getD octet.toNat 0

theorem updateCRC16_eq :
    updateCRC16 octet crc = crc16Entry (hiByte crc) ^^^ (crc <<< 8) ^^^ octet.toUInt16 := by
  have hindex : ((crc >>> 8) &&& 255).toNat = (hiByte crc).toNat := by
    have hmask : (255 : ℕ) = 2 ^ 8 - 1 := rfl
    rw [hiByte_eq, UInt16.toNat_and, UInt16.toNat_toUInt8]
    exact (congrArg _ hmask).trans (Nat.and_two_pow_sub_one_eq_mod _ _)
  rw [updateCRC16, crc16Entry, hindex]

/-- The new octet comes in at the low end. -/
theorem loByte_updateCRC16 :
    loByte (updateCRC16 octet crc) = loByte (crc16Entry (hiByte crc)) ^^^ octet := by
  have hshift : (crc <<< 8).toUInt8 = 0 := by
    apply UInt8.toNat_inj.1
    simp [Nat.shiftLeft_eq]
  rw [updateCRC16_eq, loByte_eq, loByte_eq, UInt16.toUInt8_xor, UInt16.toUInt8_xor, hshift,
    UInt8.xor_zero, UInt8.toUInt8_toUInt16]

/-- The low octet moves up. -/
theorem hiByte_updateCRC16 :
    hiByte (updateCRC16 octet crc) = hiByte (crc16Entry (hiByte crc)) ^^^ loByte crc := by
  have hshift : ((crc <<< 8) >>> 8).toUInt8 = crc.toUInt8 := by
    apply UInt8.toNat_inj.1
    simp [Nat.shiftLeft_eq, Nat.shiftRight_eq_div_pow]
    omega
  have hoctet : (octet.toUInt16 >>> 8).toUInt8 = 0 := by
    apply UInt8.toNat_inj.1
    have hlt := octet.toNat_lt
    simp [Nat.shiftRight_eq_div_pow]
    omega
  rw [updateCRC16_eq, hiByte_eq, UInt16.shiftRight_xor, UInt16.shiftRight_xor, UInt16.toUInt8_xor,
    UInt16.toUInt8_xor, hshift, hoctet, UInt8.xor_zero, ← hiByte_eq, ← loByte_eq]

end Register

/-! ## Nothing is lost -/

/-- A value of 16 bits is given by its octets. -/
theorem eq_of_octets {w w' : UInt16} (hlo : loByte w = loByte w') (hhi : hiByte w = hiByte w') :
    w = w' := by
  rw [← ofBytes_lo_hi w, hlo, hhi, ofBytes_lo_hi]

/-- The octet an entry stands for, read off the low octet of the entry. -/
def octetOfEntry (lo : UInt8) : UInt8 :=
  let x := lo ^^^ (lo <<< 5)
  x ^^^ (x >>> 4)

theorem octetOfEntry_loByte (octet : UInt8) :
    octetOfEntry (loByte (crc16Entry octet)) = octet := by
  have hall : ∀ p ∈ crc16Table.zipIdx, (octetOfEntry (loByte p.1)).toNat = p.2 := by
    decide +kernel
  have hlength : crc16Table.length = 256 := by decide +kernel
  have hlt : octet.toNat < crc16Table.length := by
    rw [hlength]
    exact octet.toNat_lt
  apply UInt8.toNat_inj.1
  refine hall (crc16Entry octet, octet.toNat) (List.mem_zipIdx_iff_getElem?.2 ?_)
  rw [List.getElem?_eq_getElem hlt, crc16Entry, List.getD_eq_getElem _ _ hlt]

/-- The low octets of the entries are all different. -/
theorem loByte_crc16Entry_injective :
    Function.Injective fun octet => loByte (crc16Entry octet) :=
  Function.LeftInverse.injective octetOfEntry_loByte

/-- One octet keeps different registers apart. -/
theorem updateCRC16_injective (octet : UInt8) : Function.Injective (updateCRC16 octet) := by
  intro crc crc' h
  have hlo := congrArg loByte h
  have hhi := congrArg hiByte h
  rw [loByte_updateCRC16, loByte_updateCRC16, UInt8.xor_left_inj] at hlo
  have hentry : hiByte crc = hiByte crc' := loByte_crc16Entry_injective hlo
  rw [hiByte_updateCRC16, hiByte_updateCRC16, hentry, UInt8.xor_right_inj] at hhi
  exact eq_of_octets hhi hentry

/-- **A block keeps different registers apart.** -/
theorem calcBlockCRC16i_injective (data : List UInt8) :
    Function.Injective (calcBlockCRC16i data) := by
  induction data with
  | nil => exact fun _ _ h => h
  | cons octet data ih =>
    intro crc crc' h
    rw [calcBlockCRC16i_cons, calcBlockCRC16i_cons] at h
    exact updateCRC16_injective octet (ih h)

/-- Two octets can be read off the register they lead to. -/
theorem updateCRC16_two_inj {a b a' b' : UInt8} {crc : UInt16}
    (h : updateCRC16 b (updateCRC16 a crc) = updateCRC16 b' (updateCRC16 a' crc)) :
    a = a' ∧ b = b' := by
  -- the first octet is in the low half of the register, so the entry does not depend on it
  have hentry : hiByte (updateCRC16 a crc) = hiByte (updateCRC16 a' crc) := by
    rw [hiByte_updateCRC16, hiByte_updateCRC16]
  have hlo := congrArg loByte h
  have hhi := congrArg hiByte h
  rw [loByte_updateCRC16, loByte_updateCRC16, hentry, UInt8.xor_right_inj] at hlo
  rw [hiByte_updateCRC16 b, hiByte_updateCRC16 b', hentry, UInt8.xor_right_inj,
    loByte_updateCRC16, loByte_updateCRC16, UInt8.xor_right_inj] at hhi
  exact ⟨hhi, hlo⟩

/-- **Bursts**: two blocks of one length that differ, and differ in two octets next to each other
at most, have different CRCs. -/
theorem calcBlockCRC16i_ne {data data' : List UInt8} (hlen : data'.length = data.length)
    (hne : data' ≠ data) (i : ℕ)
    (hburst : ∀ k, data'.getD k 0 ≠ data.getD k 0 → k = i ∨ k = i + 1) (crc : UInt16) :
    calcBlockCRC16i data' crc ≠ calcBlockCRC16i data crc := by
  induction data generalizing data' i crc with
  | nil => exact absurd (List.length_eq_zero_iff.1 hlen) hne
  | cons a as ih =>
    rcases data' with _ | ⟨a', as'⟩
    · cases hlen
    have hlen' : as'.length = as.length := Nat.succ_inj.1 hlen
    rw [calcBlockCRC16i_cons, calcBlockCRC16i_cons]
    by_cases ha : a' = a
    · -- the burst lies behind the first octet
      subst ha
      refine ih hlen' (fun h => hne (congrArg _ h)) (i - 1) (fun k hk => ?_) _
      have := hburst (k + 1) hk
      omega
    · have hi : i = 0 := by
        have := hburst 0 ha
        omega
      subst hi
      rcases as with _ | ⟨b, bs⟩
      · rw [List.length_eq_zero_iff.1 hlen']
        intro h
        have hlo := congrArg loByte h
        rw [calcBlockCRC16i_nil, calcBlockCRC16i_nil, loByte_updateCRC16, loByte_updateCRC16,
          UInt8.xor_right_inj] at hlo
        exact ha hlo
      · rcases as' with _ | ⟨b', bs'⟩
        · cases hlen'
        -- the burst ends with the second octet
        have hrest : bs' = bs := by
          refine List.ext_getElem (Nat.succ_inj.1 hlen') fun k hk hk' => ?_
          by_contra hbk
          have := hburst (k + 2) (by simpa [hk, hk'] using hbk)
          omega
        rw [calcBlockCRC16i_cons, calcBlockCRC16i_cons, hrest]
        intro h
        exact ha (updateCRC16_two_inj (calcBlockCRC16i_injective bs h)).1

end KS3.Comm
