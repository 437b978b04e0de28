import KS3.Foundations.Run
import KS3.Comm.TBuffer

/-!
# The serial ports

`hal::uarts::process` moves received octets on: those of the RS-232 port to the console, those of
the RS-485 port to the protocol of the local bus. The ports have receive rings that an interrupt
fills; the functions that take octets out of a ring belong to the chip library and are parameters
here (`ChipLibrary`), of which is assumed that they remove the oldest octets (`PopsOldest`).

For the RS-485 port the ring is read twice. The first read takes up to 64 octets into the local
array and the echo is made of them; the second one takes as many octets once more, into the same
array, and only these reach the protocol (`process_eq`).

* `handed_iff`: in every run, what is handed to the protocol is what is removed from the ring
  exactly when `process` always finds the ring empty.
-/

namespace KS3

open Comm

namespace Comm.TBuffer

/-- `read_wo_check`. -/
def readWoCheck (b : TBuffer) : UInt8 × TBuffer := (b.buffer b.iread.toNat, b.incrementIRead)

/-- The octets that `n` calls of `read_wo_check` return: what `processInputData` sees. -/
def octetsRead : ℕ → TBuffer → List UInt8
  | 0, _ => []
  | n + 1, b => b.readWoCheck.1 :: octetsRead n b.readWoCheck.2

/-- A buffer on an array, read once through: the octets of the array. -/
theorem octetsRead_eq (k : ℕ) (b : TBuffer) (i : ℕ) (hi : b.iread = i) (hsize : b.size = i + k)
    (hlt : i + k < 2 ^ 15) : octetsRead k b = b.buffer.read i k := by
  induction k generalizing b i with
  | zero => rfl
  | succ k ih =>
    have hnext : int16 (b.iread + 1) = i + 1 := by
      rw [int16, hi]
      omega
    have hbuffer : b.incrementIRead.buffer = b.buffer := rfl
    rw [octetsRead, readWoCheck, Mem.read_succ_eq_cons, hi, Int.toNat_natCast]
    rcases Nat.eq_zero_or_pos k with rfl | hk
    · rfl
    · have hread : b.incrementIRead.iread = ((i + 1 : ℕ) : ℤ) := by
        rw [incrementIRead, hnext, hsize, if_neg (by push_cast; omega)]
        push_cast
        rfl
      rw [ih b.incrementIRead (i + 1) hread (by rw [incrementIRead, hsize]; push_cast; ring)
        (by omega), hbuffer]

end Comm.TBuffer

namespace Hal.Uarts

/-! ## The chip library -/

/-- `Chip_UART_ReadRB` and `RingBuffer_PopMult`: from the octets of a ring, the memory of an array
and a number, the number of octets removed, the ring and the array after it. -/
structure ChipLibrary where
  readRB : List UInt8 → Mem → ℕ → ℕ × List UInt8 × Mem
  popMult : List UInt8 → Mem → ℕ → ℕ × List UInt8 × Mem

/-- A function removes the oldest octets of a ring, the given number of them or all there are, into
the array and returns how many. -/
def PopsOldest (pop : List UInt8 → Mem → ℕ → ℕ × List UInt8 × Mem) : Prop :=
  ∀ ring data num,
    pop ring data num = (min num ring.length, ring.drop num, data.write 0 (ring.take num))

/-- What is assumed of the library. -/
structure ChipLibrary.Lawful (lib : ChipLibrary) : Prop where
  readRB : PopsOldest lib.readRB
  popMult : PopsOldest lib.popMult

/-! ## The ports -/

/-- `kMaxRxSz`. -/
def kMaxRxSz : ℕ := 64

/-- The receive rings, with what has gone through the ports so far: the octets given to `cprocbyte`,
the echo, the octets removed from the ring of the RS-485 port and the strings of octets handed to
`Protocol::processInputData` for `LINK_ID_LOCAL`. -/
structure Ports where
  rxRs232 : List UInt8
  rxRs485 : List UInt8
  console : List UInt8
  echo : List (List UInt8)
  removed : List UInt8
  handed : List (List UInt8)

/-- What a function has removed from a ring. -/
def taken (before after : List UInt8) : List UInt8 := before.take (before.length - after.length)

/-- `process`. The array `data` is not initialized; `during` are octets that the interrupt puts into
the ring of the RS-485 port after the first read. -/
def process (lib : ChipLibrary) (data : Mem) (during : List UInt8) (u : Ports) : Ports :=
  let (n, rxRs232, data) := lib.readRB u.rxRs232 data kMaxRxSz
  let u := { u with rxRs232 := rxRs232, console := u.console ++ data.read 0 n }
  let (n, rxRs485, data) := lib.readRB u.rxRs485 data kMaxRxSz
  let u := { u with
    rxRs485 := rxRs485 ++ during, removed := u.removed ++ taken u.rxRs485 rxRs485 }
  if n > 0 then
    let u := { u with echo := u.echo ++ [data.read 0 n] }
    let (nn, rxRs485, data) := lib.popMult u.rxRs485 data n
    let u := { u with rxRs485 := rxRs485, removed := u.removed ++ taken u.rxRs485 rxRs485 }
    { u with
      handed := u.handed ++ [TBuffer.octetsRead nn (TBuffer.init data (UInt16.ofNat nn))] }
  else
    u

/-! ## Runs -/

/-- Octets arrive, or `process` is called. -/
inductive Event
  | arriveRs232 (octets : List UInt8)
  | arriveRs485 (octets : List UInt8)
  | process (data : Mem) (during : List UInt8)

/-- One event. -/
def step (lib : ChipLibrary) (u : Ports) : Event → Ports
  | .arriveRs232 octets => { u with rxRs232 := u.rxRs232 ++ octets }
  | .arriveRs485 octets => { u with rxRs485 := u.rxRs485 ++ octets }
  | .process data during => process lib data during u

/-- `process` finds the ring of the RS-485 port empty. -/
def FindsEmpty (u : Ports) : Event → Prop
  | .process _ _ => u.rxRs485 = []
  | _ => True

instance (u : Ports) : (e : Event) → Decidable (FindsEmpty u e)
  | .process _ _ => inferInstanceAs (Decidable (u.rxRs485 = []))
  | .arriveRs232 _ => inferInstanceAs (Decidable True)
  | .arriveRs485 _ => inferInstanceAs (Decidable True)

section Library

variable {lib : ChipLibrary} (h : lib.Lawful)

theorem taken_drop (ring : List UInt8) (n : ℕ) : taken ring (ring.drop n) = ring.take n := by
  rw [taken, List.length_drop]
  rcases Nat.le_total n ring.length with hn | hn
  · rw [Nat.sub_sub_self hn]
  · rw [Nat.sub_eq_zero_of_le hn, Nat.sub_zero, List.take_length, List.take_of_length_le hn]

/-- The array after octets have been removed into it. -/
theorem read_write_take (data : Mem) (ring : List UInt8) (n : ℕ) :
    (data.write 0 (ring.take n)).read 0 (min n ring.length) = ring.take n := by
  rw [← List.length_take]
  exact data.read_write 0 _

/-- The buffer on the array, read once through. -/
theorem octetsRead_init (data : Mem) (ring : List UInt8) {n : ℕ} (hn : n ≤ kMaxRxSz) :
    TBuffer.octetsRead (min n ring.length)
      (TBuffer.init (data.write 0 (ring.take n)) (UInt16.ofNat (min n ring.length))) =
      ring.take n := by
  have hle : min n ring.length ≤ 64 := (Nat.min_le_left _ _).trans hn
  rw [TBuffer.octetsRead_eq _ _ 0 rfl ?_ (by omega)]
  · exact read_write_take data ring n
  · rw [TBuffer.init, UInt16.toNat_ofNat', Nat.mod_eq_of_lt (by omega), int16]
    push_cast
    omega

include h in
/-- **What `process` does with the octets of the RS-485 port**: the first ones are removed and go no
further; as many are removed behind them and handed to the protocol. -/
theorem process_eq (data : Mem) (during : List UInt8) (u : Ports) :
    let first := u.rxRs485.take kMaxRxSz
    let second := (u.rxRs485.drop kMaxRxSz ++ during).take first.length
    (process lib data during u).removed = u.removed ++ first ++ second ∧
      (process lib data during u).handed.flatten = u.handed.flatten ++ second := by
  intro first second
  have hlen : first.length = min kMaxRxSz u.rxRs485.length := List.length_take
  simp only [process, h.readRB _ _ _, h.popMult _ _ _, taken_drop, ← hlen]
  split_ifs with hpos
  · refine ⟨rfl, ?_⟩
    rw [octetsRead_init _ _ (by rw [hlen]; exact Nat.min_le_left _ _), List.flatten_append,
      List.flatten_singleton]
  · have hnone : second = [] := by
      have hzero : first.length = 0 := Nat.eq_zero_of_not_pos hpos
      simp only [second, hzero, List.take_zero]
    rw [hnone, List.append_nil, List.append_nil]
    exact ⟨rfl, rfl⟩

end Library

/-- The ports before anything has gone through them. -/
def start (rxRs232 rxRs485 : List UInt8) : Ports := ⟨rxRs232, rxRs485, [], [], [], []⟩

/-- An event keeps what is handed on and what is removed the same exactly when it is not a call of
`process` that finds octets. -/
theorem handed_step {lib : ChipLibrary} (h : lib.Lawful) (u : Ports) (e : Event)
    (hle : u.handed.flatten.length ≤ u.removed.length) :
    (step lib u e).handed.flatten.length ≤ (step lib u e).removed.length ∧
      ((step lib u e).handed.flatten = (step lib u e).removed ↔
        u.handed.flatten = u.removed ∧ FindsEmpty u e) := by
  cases e with
  | arriveRs232 octets => exact ⟨hle, by simp [step, FindsEmpty]⟩
  | arriveRs485 octets => exact ⟨hle, by simp [step, FindsEmpty]⟩
  | process data during =>
    obtain ⟨hremoved, hhanded⟩ := process_eq h data during u
    rw [step, hremoved, hhanded]
    refine ⟨?_, ?_⟩
    · simp only [List.length_append]
      omega
    · rw [List.append_left_inj, FindsEmpty]
      constructor
      · intro heq
        have hlength := congrArg List.length heq
        rw [List.length_append] at hlength
        have hfirst : u.rxRs485.take kMaxRxSz = [] :=
          List.length_eq_zero_iff.1 (by omega)
        rw [hfirst, List.append_nil] at heq
        exact ⟨heq, by simpa [kMaxRxSz] using hfirst⟩
      · rintro ⟨heq, hempty⟩
        rw [heq, hempty, List.take_nil, List.append_nil]

/-- **RS-485 octets.** From any contents of the rings and in any order of arrivals and calls, the
strings handed to the protocol, one behind the other, are the octets removed from the ring exactly
when every call of `process` finds the ring empty. -/
theorem handed_iff (lib : ChipLibrary) (h : lib.Lawful) (rxRs232 rxRs485 : List UInt8)
    (es : List Event) :
    (Run.final (step lib) (start rxRs232 rxRs485) es).handed.flatten =
        (Run.final (step lib) (start rxRs232 rxRs485) es).removed ↔
      ∀ m ∈ Run.steps (step lib) (start rxRs232 rxRs485) es, FindsEmpty m.1 m.2 := by
  have hiff := Run.final_iff_of_invariant (I := fun u : Ports => u.handed.flatten = u.removed)
    (J := fun u : Ports => u.handed.flatten.length ≤ u.removed.length)
    (fun u e hle => (handed_step h u e hle).1) (fun u e hle => (handed_step h u e hle).2)
    (s := start rxRs232 rxRs485) le_rfl es
  rw [hiff]
  exact and_iff_right rfl

/-- A library that does what is assumed. -/
def oldestFirst : ChipLibrary where
  readRB ring data num := (min num ring.length, ring.drop num, data.write 0 (ring.take num))
  popMult ring data num := (min num ring.length, ring.drop num, data.write 0 (ring.take num))

theorem oldestFirst_lawful : oldestFirst.Lawful := ⟨fun _ _ _ => rfl, fun _ _ _ => rfl⟩

/-- Three octets arrive and are gone. -/
theorem handed_lost :
    let after := Run.final (step oldestFirst) (start [] [])
      [.arriveRs485 [1, 2, 3], .process (fun _ => 0) []]
    after.removed = [1, 2, 3] ∧ after.handed.flatten = [] ∧
      after.handed.flatten ≠ after.removed := by
  decide +kernel

/-- Octets that arrive behind the last call. -/
theorem handed_quiet :
    oldestFirst.Lawful ∧
      (Run.final (step oldestFirst) (start [65, 13] [])
        [.process (fun _ => 0) [], .arriveRs485 [7]]).handed.flatten =
      (Run.final (step oldestFirst) (start [65, 13] [])
        [.process (fun _ => 0) [], .arriveRs485 [7]]).removed :=
  ⟨oldestFirst_lawful, (handed_iff oldestFirst oldestFirst_lawful [65, 13] []
    [.process (fun _ => 0) [], .arriveRs485 [7]]).2 (by decide)⟩

end Hal.Uarts

end KS3
