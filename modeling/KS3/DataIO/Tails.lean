import KS3.DataIO.Messages

/-!
# Where a data block is cut off

`getMessagePtr` reads the size field of an application message before it knows that the field was
received. Where fewer than six octets are left, the size comes from whatever lies behind the data
block.

* `HeadersSettled`: the parser comes to no header for which that makes a difference; for a header
  cut off before its last octet it makes none if the size is too large whatever that octet is;
* `ptrResults_determined_iff`: the results of `getMessagePtr`, call by call, depend on the octets
  of the data block only, exactly when the parser comes to no such header.
-/

namespace KS3.DataIO.Layer3Rx

variable {m m' : Mem} {n i size : ℕ}

/-- The results of `k` calls of `getMessagePtr`: the return codes, and for a message its offset. A
call that returns an error leaves the parser as it is. -/
def ptrResults : ℕ → Layer3Rx → List (ℤ × Option ℕ)
  | 0, _ => []
  | k + 1, r =>
    match r.getMessagePtr with
    | .error rc => (rc, none) :: ptrResults k r
    | .ok (_, r') => (0, some r.rxIndex) :: ptrResults k r'

theorem ptrResults_error {r : Layer3Rx} {rc : ℤ} (h : r.getMessagePtr = .error rc) (k : ℕ) :
    ptrResults (k + 1) r = (rc, none) :: ptrResults k r := by
  simp only [ptrResults, h]

theorem ptrResults_ok {r r' : Layer3Rx} {msg : Mem} (h : r.getMessagePtr = .ok (msg, r')) (k : ℕ) :
    ptrResults (k + 1) r = (0, some r.rxIndex) :: ptrResults k r' := by
  simp only [ptrResults, h]

/-! ## The size of a message that is cut off -/

/-- The octets received settle the size of the application message at `i`, or that it does not
fit: the header is there, or all of it but an octet that cannot make it fit. -/
def HeaderSettled (m : Mem) (n i : ℕ) : Prop :=
  i + sizeofTMsgAppTypeHeader ≤ n ∨ i + 5 = n ∧ (m (i + 4)).toNat < 0xFA

/-- Every application header the parser comes to is settled. -/
def HeadersSettled (m : Mem) (n : ℕ) : Prop :=
  ∀ i, Reaches m n i → i < n → m i = msgAppType → HeaderSettled m n i

theorem messageSize_of_app (happ : m i = msgAppType) :
    messageSize (m.shift i) =
      some ((6 + ((m (i + 4)).toNat + 256 * (m (i + 5)).toNat)) % 2 ^ 16) := by
  have hid : m.shift i 0 = msgAppType := happ
  rw [messageSize, if_pos hid, appDataSize, Mem.word, toNat_ofBytes]
  rfl

/-- An application message that is cut off does not fit, if its size is known to be too large. -/
theorem getMessagePtr_of_cut (happ : m i = msgAppType) (hlast : i + 5 = n)
    (hlo : (m (i + 4)).toNat < 0xFA) : getMessagePtr ⟨m, i, n⟩ = .error (-3) := by
  have hhi := (m (i + 5)).toNat_lt
  exact getMessagePtr_of_gt (by omega) (messageSize_of_app happ) (by omega)

/-- Two memories that agree on a data block agree on the result for a message that is settled. -/
theorem messageSize_of_settled (hagree : Mem.Agree m m' n) (hlt : i < n)
    (hin : m i = msgAppType → i + sizeofTMsgAppTypeHeader ≤ n) :
    messageSize (m'.shift i) = messageSize (m.shift i) := by
  refine messageSize_ext (hagree i hlt) fun happ => ?_
  have hle := hin ((hagree i hlt).symm.trans happ)
  simp only [sizeofTMsgAppTypeHeader] at hle
  simp only [Mem.word, Mem.shift_apply]
  rw [hagree (i + 4) (by omega), hagree (i + (4 + 1)) (by omega)]

/-- Settled headers give the same results in both memories. -/
theorem ptrResults_congr (hn : n < 2 ^ 16) (hagree : Mem.Agree m m' n)
    (hok : HeadersSettled m n) (hi : Reaches m n i) (k : ℕ) :
    ptrResults k ⟨m', i, n⟩ = ptrResults k ⟨m, i, n⟩ := by
  induction k generalizing i with
  | zero => rfl
  | succ k ih =>
    rcases lt_or_ge i n with hlt | hge
    · by_cases hcut : m i = msgAppType ∧ ¬ i + sizeofTMsgAppTypeHeader ≤ n
      · -- the last octet of the header is missing
        obtain ⟨happ, hout⟩ := hcut
        obtain ⟨hlast, hlo⟩ := (hok i hi hlt happ).resolve_left hout
        have happ' : m' i = msgAppType := (hagree i hlt).trans happ
        have hlo' : (m' (i + 4)).toNat < 0xFA := by rwa [hagree (i + 4) (by omega)]
        rw [ptrResults_error (getMessagePtr_of_cut happ hlast hlo),
          ptrResults_error (getMessagePtr_of_cut happ' hlast hlo'), ih hi]
      · have hsame : messageSize (m'.shift i) = messageSize (m.shift i) :=
          messageSize_of_settled hagree hlt fun happ => by
            by_contra hout
            exact hcut ⟨happ, hout⟩
        cases hsize : messageSize (m.shift i) with
        | none =>
          rw [ptrResults_error (getMessagePtr_of_none hlt hsize),
            ptrResults_error (getMessagePtr_of_none hlt (hsame.trans hsize)), ih hi]
        | some size =>
          by_cases hle : i + size ≤ n
          · rw [ptrResults_ok (getMessagePtr_mk hn hlt hsize hle),
              ptrResults_ok (getMessagePtr_mk hn hlt (hsame.trans hsize) hle),
              ih (hi.next hlt hsize hle)]
          · rw [ptrResults_error (getMessagePtr_of_gt hlt hsize (by omega)),
              ptrResults_error (getMessagePtr_of_gt hlt (hsame.trans hsize) (by omega)), ih hi]
    · rw [ptrResults_error (getMessagePtr_of_le hge), ptrResults_error (getMessagePtr_of_le hge),
        ih hi]

/-! ## Octets behind the data block -/

/-- A header that is not settled: with zeros behind the data block its message does not fit, with
the size that makes it empty it does. -/
theorem not_determined_of_cut (hn : n < 2 ^ 16) (hlt : i < n) (happ : m i = msgAppType)
    (hcut : ¬ HeaderSettled m n i) :
    ¬ Mem.Determined (fun m => ptrResults 1 ⟨m, i, n⟩) m n := by
  simp only [HeaderSettled, sizeofTMsgAppTypeHeader, not_or, not_and, not_lt] at hcut
  obtain ⟨hout, hlast⟩ := hcut
  let t : Mem := fun k => if k = i + 4 then 0xFA else 0xFF
  have happ' : ∀ t' : Mem, Mem.splice m t' n i = msgAppType := fun t' =>
    (Mem.splice_of_lt hlt).trans happ
  have hhi : ∀ t' : Mem, Mem.splice m t' n (i + 5) = t' (i + 5) := fun t' =>
    Mem.splice_of_le (by omega)
  refine Mem.not_determined (fun _ => 0) t ?_
  have hzero : getMessagePtr ⟨Mem.splice m (fun _ => 0) n, i, n⟩ = .error (-3) := by
    have hlo := (Mem.splice m (fun _ => 0) n (i + 4)).toNat_lt
    refine getMessagePtr_of_gt hlt (messageSize_of_app (happ' _)) ?_
    rw [hhi]
    have : (0 : UInt8).toNat = 0 := rfl
    omega
  have hempty : ∃ size, messageSize ((Mem.splice m t n).shift i) = some size ∧
      i + size ≤ n := by
    have hff : (Mem.splice m t n (i + 5)).toNat = 0xFF := by
      rw [hhi]
      simp [t]
    have hlo := (Mem.splice m t n (i + 4)).toNat_lt
    rcases lt_or_ge (i + 4) n with hin | hin
    · -- only the high octet of the size field is missing
      have hfa := hlast (by omega)
      have hkeep : Mem.splice m t n (i + 4) = m (i + 4) := Mem.splice_of_lt hin
      rw [← hkeep] at hfa
      exact ⟨_, messageSize_of_app (happ' t), by omega⟩
    · have hfa : (Mem.splice m t n (i + 4)).toNat = 0xFA := by
        rw [Mem.splice_of_le hin]
        simp [t]
      exact ⟨_, messageSize_of_app (happ' t), by omega⟩
  obtain ⟨size, hsize, hle⟩ := hempty
  rw [ptrResults_error hzero, ptrResults_ok (getMessagePtr_mk hn hlt hsize hle)]
  simp

/-- Results that are determined from the beginning on are determined from every place the parser
comes to. -/
theorem determined_of_reaches (hn : n < 2 ^ 16)
    (hdet : ∀ k, Mem.Determined (fun m => ptrResults k ⟨m, 0, n⟩) m n) (hi : Reaches m n i)
    (k : ℕ) : Mem.Determined (fun m => ptrResults k ⟨m, i, n⟩) m n := by
  induction hi generalizing k with
  | start => exact hdet k
  | @next i size _ hlt hsize hle ih =>
    intro m' hagree
    have hin : m i = msgAppType → i + sizeofTMsgAppTypeHeader ≤ n := by
      intro happ
      by_contra hout
      by_cases hsettled : HeaderSettled m n i
      · obtain ⟨hlast, hlo⟩ := hsettled.resolve_left hout
        have herror := getMessagePtr_of_cut happ hlast hlo
        rw [getMessagePtr_mk hn hlt hsize hle] at herror
        cases herror
      · exact not_determined_of_cut hn hlt happ hsettled (ih 1)
    have hsize' := (messageSize_of_settled hagree hlt hin).trans hsize
    have hnext := ih (k + 1) m' hagree
    simp only at hnext ⊢
    rw [ptrResults_ok (getMessagePtr_mk hn hlt hsize hle),
      ptrResults_ok (getMessagePtr_mk hn hlt hsize' hle)] at hnext
    exact (List.cons.inj hnext).2

/-- **What the results of `getMessagePtr` depend on.** For every data block, the results of all
calls after `setRxAppData` are determined by its octets exactly when the parser comes to no
application header that is cut off, but for one whose last octet is missing and whose size is too
large whatever that octet is. -/
theorem ptrResults_determined_iff (buffer : Mem) (n : UInt16) :
    (∀ k, Mem.Determined (fun m => ptrResults k (setRxAppData m n)) buffer n.toNat) ↔
      HeadersSettled buffer n.toNat := by
  have hn := n.toNat_lt
  constructor
  · intro hdet i hi hlt happ
    by_contra hcut
    exact not_determined_of_cut hn hlt happ hcut (determined_of_reaches hn hdet hi 1)
  · intro hok k m' hagree
    exact ptrResults_congr hn hagree hok .start k

/-- A data block of one octet, the id of an application message: the two octets four and five
places behind it decide whether `getMessagePtr` finds a message. -/
theorem ptrResults_one_octet :
    ¬ ∀ k, Mem.Determined (fun m => ptrResults k (setRxAppData m 1))
      (Mem.ofList [0x80, 0, 0, 0, 0, 0]) 1 := by
  intro hdet
  have hagree : ∀ k < 1, Mem.ofList [0x80, 0, 0, 0, 0xFA, 0xFF] k =
      Mem.ofList [0x80, 0, 0, 0, 0, 0] k := by decide
  exact absurd (hdet 1 _ hagree) (by decide +kernel)

end KS3.DataIO.Layer3Rx
