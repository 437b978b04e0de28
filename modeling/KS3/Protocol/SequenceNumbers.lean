import KS3.Protocol.Assembly

/-!
# The sequence numbers of requests

A request that asks for an answer gets the next number of a counter, by which the answer is matched
with it. Two numbers are reserved: `0xFF` for requests without an answer and `0xFE` for messages a
device sends on its own. `getSeqNumber` compares the counter with 254 after it has read it, so the
numbers go round through 0, 1, …, 254 (`seqNumber`), and 254 is `0xFE`.

The numbers of a whole run are an initial part of that sequence (`numbers_eq`), whatever the
packets, refusals and notifications in between are. So any 254 of them in a row are different, and
the 255th is reserved.

* `sequenceNumbers_iff`: the numbers of a run are legal exactly when no packet is built that takes
  the counter beyond 254.
-/

namespace KS3.Protocol

open Comm DataIO TMasterTx

/-! ## The sequence -/

/-- The number of the request with index `k` among those that ask for an answer. -/
def seqNumber (k : ℕ) : UInt8 := UInt8.ofNat (k % 255)

theorem toNat_seqNumber (k : ℕ) : (seqNumber k).toNat = k % 255 := by
  rw [seqNumber, UInt8.toNat_ofNat']
  omega

theorem nextSeqNumber_seqNumber (k : ℕ) : nextSeqNumber (seqNumber k) = seqNumber (k + 1) := by
  have hk := toNat_seqNumber k
  apply UInt8.toNat_inj.1
  rw [toNat_seqNumber, nextSeqNumber]
  have h254 : seqNumber k ≥ 254 ↔ 254 ≤ k % 255 := by
    rw [ge_iff_le, UInt8.le_iff_toNat_le, hk]
    rfl
  split_ifs with h
  · rw [h254] at h
    rw [UInt8.toNat_zero]
    omega
  · rw [h254] at h
    rw [UInt8.toNat_add, hk, UInt8.toNat_one]
    omega

/-- The sequence numbers of requests that ask for an answer are legal: none is reserved, and any
254 in a row are different. -/
structure Legal (numbers : List UInt8) : Prop where
  free : ∀ n ∈ numbers, n ≠ 0xFF ∧ n ≠ 0xFE
  distinct : ∀ i, ((numbers.drop i).take 254).Nodup

/-- Numbers that are less than a round apart are different. -/
theorem nodup_window (c i : ℕ) : (((List.map seqNumber (List.range c)).drop i).take 254).Nodup := by
  have hmem : ∀ x ∈ ((List.range c).drop i).take 254, i ≤ x ∧ x < i + 254 := by
    intro x hx
    rw [List.mem_take_iff_getElem] at hx
    obtain ⟨j, hj, rfl⟩ := hx
    rw [List.getElem_drop, List.getElem_range]
    omega
  rw [← List.map_drop, ← List.map_take]
  refine List.Nodup.map_on (fun x hx y hy hxy => ?_) ?_
  · have hmod := congrArg UInt8.toNat hxy
    rw [toNat_seqNumber, toNat_seqNumber] at hmod
    have hx' := hmem x hx
    have hy' := hmem y hy
    omega
  · exact (List.nodup_range.sublist (List.drop_sublist i _)).sublist (List.take_sublist _ _)

/-- **The sequence is legal up to the 254th number.** -/
theorem legal_iff (c : ℕ) : Legal (List.map seqNumber (List.range c)) ↔ c ≤ 254 := by
  refine ⟨fun h => ?_, fun h => ⟨fun n hn => ?_, nodup_window c⟩⟩
  · by_contra hc
    have hmem : seqNumber 254 ∈ List.map seqNumber (List.range c) :=
      List.mem_map_of_mem (List.mem_range.2 (by omega))
    exact (h.free _ hmem).2 rfl
  · obtain ⟨k, hk, rfl⟩ := List.mem_map.1 hn
    have hlt := List.mem_range.1 hk
    have hnat := toNat_seqNumber k
    refine ⟨fun heq => ?_, fun heq => ?_⟩
    · rw [heq] at hnat
      change 255 = k % 255 at hnat
      omega
    · rw [heq] at hnat
      change 254 = k % 255 at hnat
      omega

/-! ## A packet -/

/-- The requests of a packet that ask for an answer. -/
def asking (rqs : List TTxRequest) : List TTxRequest := rqs.filter fun rq => rq.Asks

/-- The numbers of those requests. -/
theorem numbers_numbered (k : ℕ) (rqs : List TTxRequest) :
    ((numbered (seqNumber k) rqs).filter fun x => x.1.Asks).map Prod.snd =
      (List.range' k (asking rqs).length).map seqNumber := by
  induction rqs generalizing k with
  | nil => rfl
  | cons rq rqs ih =>
    rw [numbered, asking, List.filter_cons]
    by_cases hasks : rq.Asks
    · simp only [hasks, if_true, decide_true, List.filter_cons, List.map_cons, List.length_cons,
        List.range'_succ, nextSeqNumber_seqNumber, ih]
      rfl
    · simp only [hasks, if_false, decide_false, List.filter_cons, Bool.false_eq_true, ih]
      rfl

section Packet

variable {τ : Type*} (bus : LocalBus τ) {m : TMasterTx τ}

/-- The counter after several requests. -/
theorem sn_foldl_take (k : ℕ) {taken : List TTxRequest} (hok : ∀ rq ∈ taken, rq.Ok)
    (hsn : m.sn = seqNumber k) :
    (taken.foldl (TMasterTx.take bus) m).sn = seqNumber (k + (asking taken).length) := by
  induction taken generalizing m k with
  | nil => exact hsn
  | cons rq rqs ih =>
    have hnext := sn_take bus (m := m) (hok rq List.mem_cons_self)
    have hrest : ∀ rq' ∈ rqs, rq'.Ok := fun rq' h => hok rq' (List.mem_cons_of_mem rq h)
    rw [List.foldl_cons, asking, List.filter_cons]
    by_cases hasks : rq.Asks
    · rw [if_pos hasks, hsn, nextSeqNumber_seqNumber] at hnext
      rw [ih (k + 1) hrest hnext, if_pos (decide_eq_true hasks), List.length_cons, asking]
      congr 1
      omega
    · rw [if_neg hasks] at hnext
      rw [ih k hrest (hnext.trans hsn), if_neg (by simpa using hasks), asking]

/-- The counter after a packet has been built. -/
theorem sn_process (k : ℕ) {rq : TTxRequest} {rqs : List TTxRequest}
    (hstate : m.state = .stReadyToTx) (hfree : bus.getTxFree m.protocol.lower ≠ 0)
    (hqueue : m.txQueue.toList = rq :: rqs) (hok : ∀ rq' ∈ rq :: rqs, rq'.Ok)
    (hlimit : m.protocol.layer3.maxTxAppSize = maxLayer2DataSize) (hsn : m.sn = seqNumber k)
    (now : UInt32) :
    (m.process bus now).sn = seqNumber (k + (asking (batch (rq :: rqs))).length) := by
  obtain ⟨hfill, htaken⟩ := fill_batch bus hqueue hok hlimit
  have hfold := sn_foldl_take bus k (m := m.begun rq.address) htaken hsn
  rw [process_eq bus hstate hfree hqueue hok hlimit]
  rw [← hfill] at hfold
  exact hfold

end Packet

/-! ## Runs -/

namespace Line

variable {τ : Type*} (bus : LocalBus τ)

/-- The requests that an event builds messages for, with the sequence numbers of these. -/
def built (s : Line τ) : Event τ → List (TTxRequest × UInt8)
  | .process =>
    if s.master.state = .stReadyToTx ∧ bus.getTxFree s.master.protocol.lower ≠ 0 then
      numbered s.master.sn (batch s.master.txQueue.toList)
    else []
  | _ => []

/-- An event passes down one packet with the messages of the requests it builds, or none if it
builds none. -/
def Builds (s : Line τ) (e : Event τ) : Prop :=
  (built bus s e = [] ∧ Passes bus s e []) ∨
    ∃ dest octets written, Passes bus s e [.frame dest
      ((built bus s e).map fun x => x.1.octets x.2 (bus.reserved s.master.protocol.lower)).flatten
      octets written]

/-- The sequence numbers of the requests of a run that ask for an answer. -/
def numbers (s : Line τ) (es : List (Event τ)) : List UInt8 :=
  (((Run.steps (step bus) s es).flatMap fun m => built bus m.1 m.2).filter
    fun x => x.1.Asks).map Prod.snd

/-- An event that builds a packet does not take the counter beyond 254. -/
def Spare (s : Line τ) (e : Event τ) : Prop :=
  s.master.sn.toNat + (asking ((built bus s e).map Prod.fst)).length ≤ 254

section Step

variable {bus} {s : Line τ} {T E : UInt32}

/-- The numbers of the requests of an event that ask for an answer. -/
theorem numbers_built {k : ℕ} (hsn : s.master.sn = seqNumber k) (e : Event τ) :
    ((built bus s e).filter fun x => x.1.Asks).map Prod.snd =
      (List.range' k (asking ((built bus s e).map Prod.fst)).length).map seqNumber := by
  cases e with
  | process =>
    rw [built]
    split_ifs
    · rw [map_fst_numbered, hsn, numbers_numbered]
    · rfl
  | _ => rfl

/-- An event that builds nothing, moves no counter and passes nothing down. -/
theorem builds_of_keeps {k : ℕ} (hsn : s.master.sn = seqNumber k) {e : Event τ}
    (hbuilt : built bus s e = []) (hsame : (s.step bus e).master.sn = s.master.sn)
    (hpackets : (s.step bus e).master.protocol.packets = s.master.protocol.packets) :
    (s.step bus e).master.sn = seqNumber (k + (asking ((built bus s e).map Prod.fst)).length) ∧
      Builds bus s e := by
  refine ⟨?_, .inl ⟨hbuilt, ?_⟩⟩
  · rw [hbuilt, hsame, hsn]
    rfl
  · rw [Passes, hpackets, List.append_nil]

/-- What `process` builds when it is ready for a packet. -/
theorem builds_process (hok : s.Ok T E) {k : ℕ} (hsn : s.master.sn = seqNumber k)
    (hready : s.master.state = .stReadyToTx ∧ bus.getTxFree s.master.protocol.lower ≠ 0) :
    (s.step bus .process).master.sn =
        seqNumber (k + (asking ((built bus s .process).map Prod.fst)).length) ∧
      Builds bus s .process := by
  have hbuilt : built bus s .process =
      numbered s.master.sn (batch s.master.txQueue.toList) := if_pos hready
  cases hqueue : s.master.txQueue.toList with
  | nil =>
    have hidle : s.master.process bus (tick s.time) = s.master := by
      rw [TMasterTx.process, hready.1]
      dsimp only
      rw [if_pos hready.2, TQueue.front_eq, hqueue]
      rfl
    rw [hqueue] at hbuilt
    exact builds_of_keeps hsn hbuilt (by rw [step, hidle]) (by rw [step, hidle])
  | cons rq rqs =>
    have hrqs := hok.requests
    rw [hqueue] at hbuilt hrqs
    rw [hbuilt, map_fst_numbered]
    refine ⟨sn_process bus k hready.1 hready.2 hqueue hrqs hok.limit hsn _, .inr ?_⟩
    obtain ⟨written, -, hpackets⟩ :=
      packets_process bus hready.1 hready.2 hqueue hrqs hok.limit (tick s.time)
    rw [payload_fill bus hqueue hrqs hok.limit, messages] at hpackets
    rw [hbuilt]
    exact ⟨_, _, written, hpackets⟩

/-- **What an event builds**: the counter moves on by the requests that ask for an answer, and the
packet holds their messages. -/
theorem builds_step (hok : s.Ok T E) {k : ℕ} (hsn : s.master.sn = seqNumber k) (e : Event τ) :
    (s.step bus e).master.sn = seqNumber (k + (asking ((built bus s e).map Prod.fst)).length) ∧
      Builds bus s e := by
  cases e with
  | process =>
    by_cases hready : s.master.state = .stReadyToTx ∧ bus.getTxFree s.master.protocol.lower ≠ 0
    · exact builds_process hok hsn hready
    · have hbuilt : built bus s .process = [] := if_neg hready
      obtain hsame | ⟨rq, rqs, hstate, hfree, -⟩ | ⟨-, -, hout⟩ | ⟨-, -, hout⟩ :=
        TMasterTx.process_cases bus hok.requests hok.limit (tick s.time)
      · exact builds_of_keeps hsn hbuilt (by rw [step, hsame]) (by rw [step, hsame])
      · exact absurd ⟨hstate, hfree⟩ hready
      · exact builds_of_keeps hsn hbuilt (by rw [step, hout]) (by rw [step, hout])
      · exact builds_of_keeps hsn hbuilt (by rw [step, hout]) (by rw [step, hout])
  | onRxSlaveData =>
    refine builds_of_keeps hsn rfl ?_ ?_
    · rw [step, TMasterTx.onRxSlaveData]
      split_ifs <;> rfl
    · rw [step, TMasterTx.onRxSlaveData]
      split_ifs <;> rfl
  | onRxSlavePacket =>
    refine builds_of_keeps hsn rfl ?_ ?_
    · rw [step, TMasterTx.onRxSlavePacket]
      split_ifs <;> rfl
    · rw [step, TMasterTx.onRxSlavePacket]
      split_ifs <;> rfl
  | _ => exact builds_of_keeps hsn rfl rfl rfl

theorem numbers_concat (es : List (Event τ)) (e : Event τ) :
    numbers bus s (es ++ [e]) = numbers bus s es ++
      ((built bus (Run.final (step bus) s es) e).filter fun x => x.1.Asks).map Prod.snd := by
  rw [numbers, Run.steps_append, List.flatMap_append, List.filter_append, List.map_append]
  simp [numbers]

/-- **The numbers of a run** are the beginning of the sequence, and the counter is behind them. -/
theorem numbers_eq (hok : s.Ok T E) (hsn : s.master.sn = 0) (es : List (Event τ)) :
    numbers bus s es = (List.range (numbers bus s es).length).map seqNumber ∧
      (Run.final (step bus) s es).master.sn = seqNumber (numbers bus s es).length := by
  induction es using List.reverseRecOn with
  | nil => exact ⟨rfl, hsn⟩
  | append_singleton es e ih =>
    obtain ⟨hnumbers, hcounter⟩ := ih
    have hbuilt : ((built bus (Run.final (step bus) s es) e).filter fun x => x.1.Asks).map
        Prod.snd = _ := numbers_built hcounter e
    have hlength : (numbers bus s (es ++ [e])).length = (numbers bus s es).length +
        (asking ((built bus (Run.final (step bus) s es) e).map Prod.fst)).length := by
      rw [numbers_concat, List.length_append, hbuilt, List.length_map, List.length_range']
    refine ⟨?_, ?_⟩
    · rw [hlength, numbers_concat, hbuilt, List.range_eq_range', ← List.range'_append_1,
        List.map_append, ← List.range_eq_range', ← hnumbers, Nat.zero_add]
    · rw [Run.final_append, hlength]
      exact (builds_step (ok_run bus hok es) hcounter e).1

/-- The counter has room at every step exactly when the run builds 254 numbers at most. -/
theorem spare_iff (hok : s.Ok T E) (hsn : s.master.sn = 0) (es : List (Event τ)) :
    (∀ m ∈ Run.steps (step bus) s es, Spare bus m.1 m.2) ↔ (numbers bus s es).length ≤ 254 := by
  induction es using List.reverseRecOn with
  | nil => simp [numbers]
  | append_singleton es e ih =>
    have hcounter : (Run.final (step bus) s es).master.sn = _ := (numbers_eq hok hsn es).2
    have hnat := congrArg UInt8.toNat hcounter
    rw [toNat_seqNumber] at hnat
    rw [Run.steps_append, List.forall_mem_append, ih, numbers_concat, List.length_append,
      numbers_built hcounter, List.length_map, List.length_range', Run.steps_cons, Run.steps_nil,
      List.forall_mem_singleton, Spare]
    dsimp only
    rw [hnat]
    constructor
    · rintro ⟨hle, hspare⟩
      omega
    · intro hle
      omega

end Step

section Numbers

variable (address srcAddress : UInt16) (layer3 : Layer3Tx) (lower : τ) (cells : ℕ → TTxRequest)
  (T E : UInt32) (time : ℕ)

/-- **Sequence numbers.** In every run, each packet holds the messages of the requests it was built
for with their sequence numbers; and the numbers of those that ask for an answer are legal exactly
when no packet takes the counter beyond 254. -/
theorem sequenceNumbers_iff (es : List (Event τ)) :
    (∀ m ∈ Run.steps (step bus) (init address srcAddress layer3 lower cells T E time) es,
      Builds bus m.1 m.2) ∧
    (Legal (numbers bus (init address srcAddress layer3 lower cells T E time) es) ↔
      ∀ m ∈ Run.steps (step bus) (init address srcAddress layer3 lower cells T E time) es,
        Spare bus m.1 m.2) := by
  have hok := ok_init address srcAddress layer3 lower cells T E time
  refine ⟨?_, ?_⟩
  · have hnext : ∀ (s : Line τ) e, (s.Ok T E ∧ ∃ k, s.master.sn = seqNumber k) →
        (step bus s e).Ok T E ∧ ∃ k, (step bus s e).master.sn = seqNumber k := by
      rintro s e ⟨hs, k, hk⟩
      exact ⟨invariant_step bus s e hs, _, (builds_step hs hk e).1⟩
    have hcounter := Run.always_steps hnext ⟨hok, 0, rfl⟩ es
    intro m hm
    obtain ⟨hs, k, hk⟩ := hcounter m hm
    exact (builds_step hs hk m.2).2
  · rw [spare_iff hok rfl, (numbers_eq hok rfl es).1, legal_iff, List.length_map,
      List.length_range]

end Numbers

/-- Sixteen reads that ask for an answer, their packet, and the timeout of the answer. -/
def readRound : List (Event ℕ) :=
  List.replicate 16 (.addTxMsgRead 1 5 fRqAnswer linkIdLocal) ++ [.process, .pass 20, .process]

/-- The 255th read of sixteen rounds has the reserved number. -/
theorem sequenceNumbers_reserved :
    ¬ Legal (numbers uart (fresh 10000) (List.replicate 16 readRound).flatten) := by
  have hmem : (0xFE : UInt8) ∈
      numbers uart (fresh 10000) (List.replicate 16 readRound).flatten := by
    decide +kernel
  exact fun h => (h.free _ hmem).2 rfl

end Line

end KS3.Protocol
