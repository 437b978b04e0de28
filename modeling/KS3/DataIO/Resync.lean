import KS3.DataIO.Reception

/-!
# Frames behind noise

The receiver hunts for the octets `0xAA 0x55`. An octet other than `0x55` behind `0xAA` sends it
back to waiting, and so does a second `0xAA`, which is then not taken for the first octet of a
preamble. Of several octets `0xAA` in a row it sees every other one.

* `tracks_noise`: behind octets without a preamble the receiver waits if they end with an even
  number of octets `0xAA`, and takes the next octet for the second one of a preamble if not;
* `accepts_after_noise_iff`: the frame that follows is accepted exactly in the first case.
-/

namespace KS3.DataIO

/-- How many octets `0xAA` there are at the end. -/
def trailingB0 (g : List UInt8) : ℕ := (g.reverse.takeWhile (· = layer2PreambleB0)).length

theorem trailingB0_concat (g : List UInt8) (b : UInt8) :
    trailingB0 (g ++ [b]) = if b = layer2PreambleB0 then trailingB0 g + 1 else 0 := by
  simp only [trailingB0, List.reverse_append, List.reverse_singleton, List.singleton_append,
    List.takeWhile_cons, decide_eq_true_eq]
  split_ifs <;> rfl

/-- Octets that end with `0xAA` and hold no preamble are not followed by `0x55` in one without
a preamble. -/
theorem ne_of_noPreamble_concat {g : List UInt8} {b : UInt8} (hn : Receiver.NoPreamble (g ++ [b]))
    (hodd : trailingB0 g ≠ 0) : b ≠ layer2PreambleB1 := by
  induction g using List.reverseRecOn with
  | nil => exact absurd rfl hodd
  | append_singleton g a _ =>
    rw [trailingB0_concat] at hodd
    have ha : a = layer2PreambleB0 := by
      by_contra hne
      exact hodd (if_neg hne)
    rintro rfl
    rw [List.append_assoc, Receiver.NoPreamble, List.isChain_append] at hn
    exact (List.isChain_cons_cons.1 hn.2.1).1 ⟨ha, rfl⟩

/-- What a receiver that hunts for a preamble is after octets without one. -/
def Receiver.afterNoise (g : List UInt8) : Receiver :=
  if Even (trailingB0 g) then .wait else .preamble2

theorem Receiver.next_afterNoise (st : Station) {g : List UInt8} {b : UInt8}
    (hn : NoPreamble (g ++ [b])) : ((afterNoise g).next st b).2 = afterNoise (g ++ [b]) := by
  rw [afterNoise, afterNoise, trailingB0_concat]
  by_cases heven : Even (trailingB0 g)
  · rw [if_pos heven, next]
    by_cases hb : b = layer2PreambleB0
    · rw [if_pos hb, if_pos hb, if_neg fun h => Nat.even_add_one.1 h heven]
    · rw [if_neg hb, if_neg hb, if_pos Even.zero]
  · have hne : b ≠ layer2PreambleB1 :=
      ne_of_noPreamble_concat hn fun h => heven (h ▸ Even.zero)
    rw [if_neg heven, next, if_neg hne]
    by_cases hb : b = layer2PreambleB0
    · rw [if_pos hb, if_pos (Nat.even_add_one.2 heven)]
    · rw [if_neg hb, if_pos Even.zero]

/-! ## What is ready -/

/-- A receiver that has seen `n` octets has collected no more, and a frame is as long as its size
field says. -/
def Receiver.Held (n : ℕ) : Receiver → Prop
  | .wait => True
  | .preamble2 => 1 ≤ n
  | .frame fr => fr.length ≤ n
  | .ready fr => fr.length ≤ n ∧ fr.length = sizeField fr + 10

theorem Receiver.held_next (st : Station) {n : ℕ} {r : Receiver} (h : r.Held n) (b : UInt8) :
    (r.next st b).2.Held (n + 1) := by
  cases r with
  | wait =>
    rw [next]
    split_ifs
    · exact Nat.le_add_left 1 n
    · trivial
  | preamble2 =>
    by_cases hb : b = layer2PreambleB1
    · rw [next, if_pos hb]
      exact Nat.succ_le_succ h
    · rw [next, if_neg hb]
      trivial
  | frame fr =>
    have hlen : (fr ++ [b]).length ≤ n + 1 := by
      rw [List.length_append]
      exact Nat.succ_le_succ h
    simp only [next, collect, endHeader, endData]
    split_ifs with h₈ hsize hcrc hmine hend hcrc
    · trivial
    · exact hlen
    · trivial
    · trivial
    · exact ⟨hlen, hend.2⟩
    · trivial
    · exact hlen
  | ready fr => exact ⟨h.1.trans (Nat.le_succ n), h.2⟩

theorem Receiver.held_feed (st : Station) {n : ℕ} {r : Receiver} (h : r.Held n)
    (bs : List UInt8) : (r.feed st bs).2.Held (n + bs.length) := by
  induction bs generalizing n r with
  | nil => exact h
  | cons b bs ih =>
    have hrest := ih (held_next st h b)
    rwa [Nat.add_assoc, Nat.add_comm 1] at hrest

namespace DataIOLayer2

variable {l : DataIOLayer2}

/-- **Noise**: where octets without a preamble leave the receiver. -/
theorem tracks_noise (hwait : l.state = .stWait) {g : List UInt8} (hn : Receiver.NoPreamble g) :
    (l.feed g).2.Tracks (Receiver.afterNoise g) ∧ (l.feed g).2.station = l.station := by
  induction g using List.reverseRecOn with
  | nil => exact ⟨hwait, rfl⟩
  | append_singleton g b ih =>
    obtain ⟨htracks, hstation⟩ := ih (List.isChain_append.1 hn).1
    have hload : (Receiver.afterNoise g).load < 2 ^ 16 - 1 := by
      rw [Receiver.afterNoise]
      split_ifs
      · exact Nat.zero_lt_succ _
      · exact Nat.one_lt_succ_succ _
    obtain ⟨-, hnext, hstation'⟩ := tracks_rxHandler htracks hload b
    rw [hstation, Receiver.next_afterNoise _ hn] at hnext
    rw [feed_append]
    exact ⟨hnext, hstation'.trans hstation⟩

/-- The octets end with a frame that is accepted: `rxHandler` returns 2 for the last one, and what
`getRxDataPtr` then returns are the parts of the frame. -/
def Accepts (l : DataIOLayer2) (bs : List UInt8) (f : Frame) : Prop :=
  (l.feed bs).1.getLast? = some 2 ∧
    ∃ data : Mem, (l.feed bs).2.getRxDataPtr =
        some (data, f.dest.toUInt16, f.src.toUInt16, f.data.length) ∧
      data.read 0 f.data.length = f.data

/-- A receiver in the middle of a preamble misses the one of the frame. -/
theorem not_accepts_of_preamble2 (h : l.Tracks .preamble2) (f : Frame) :
    ¬ l.Accepts f.bytes f := by
  rintro ⟨-, data, hdata, -⟩
  have hle := f.size_le
  have hlen := f.length_bytes
  obtain ⟨-, htracks, -⟩ := tracks_feed (r := .preamble2) f.bytes h
    (by simp only [Receiver.load, hlen, maxLayer2DataSize] at *; omega)
  -- the two octets of the preamble send the receiver back to waiting
  have hfeed : (Receiver.preamble2.feed l.station f.bytes).2 =
      (Receiver.wait.feed l.station (f.bytes.drop 2)).2 := rfl
  have hheld : (Receiver.wait.feed l.station (f.bytes.drop 2)).2.Held
      (0 + (f.bytes.drop 2).length) :=
    Receiver.held_feed l.station (r := .wait) trivial _
  rw [hfeed] at htracks
  rw [getRxDataPtr] at hdata
  split_ifs at hdata with hready
  have hsize : (l.feed f.bytes).2.dataSize = f.data.length := by
    simp only [Option.some.injEq, Prod.mk.injEq] at hdata
    exact hdata.2.2.2
  obtain ⟨fr, hfr⟩ := htracks.eq_ready hready
  rw [hfr] at htracks hheld
  obtain ⟨hle', hfield⟩ := hheld
  have hfrsize : (l.feed f.bytes).2.dataSize = sizeField fr :=
    congrArg UInt16.toNat (Mem.word_of_read _ htracks.2 (by omega))
  rw [List.length_drop] at hle'
  omega

/-- **A frame behind noise** is accepted exactly when the noise ends with an even number of octets
`0xAA`. -/
theorem accepts_after_noise_iff (l : DataIOLayer2) (hwait : l.state = .stWait) (g : List UInt8)
    (hn : Receiver.NoPreamble g) (f : Frame) (hdata : 1 ≤ f.data.length)
    (hmine : f.dest = l.selfAddress ∨ f.dest = l.broadcastAddress) :
    l.Accepts (g ++ f.bytes) f ↔ Even (trailingB0 g) := by
  obtain ⟨htracks, hstation⟩ := tracks_noise hwait hn
  have hcodes : ((l.feed g).2.feed f.bytes).1 ≠ [] := List.cons_ne_nil _ _
  have hsplit : l.Accepts (g ++ f.bytes) f ↔ (l.feed g).2.Accepts f.bytes f := by
    rw [Accepts, Accepts, feed_append, List.getLast?_append_of_ne_nil _ hcodes]
  rw [hsplit]
  by_cases heven : Even (trailingB0 g)
  · refine iff_of_true ?_ heven
    rw [Receiver.afterNoise, if_pos heven] at htracks
    have hmine' : (l.feed g).2.station.Mine f.dest := by
      rw [hstation]
      exact hmine
    obtain ⟨hcodes, hready, -⟩ := feed_frame htracks (List.ne_nil_of_length_pos hdata) hmine'
    refine ⟨?_, _, getRxDataPtr_ready hready⟩
    rw [hcodes, List.getLast?_concat]
  · refine iff_of_false ?_ heven
    rw [Receiver.afterNoise, if_neg heven] at htracks
    exact not_accepts_of_preamble2 htracks f

/-- A frame with one octet of data for the station 9. -/
def frameNine : Frame := ⟨9, 1, [7], by decide⟩

/-- Behind noise with two octets `0xAA` at its end the frame is accepted. -/
theorem accepts_after_noise_iff_two :
    stationNine.construct.Accepts ([0x55, 0xAA, 0xAA] ++ frameNine.bytes) frameNine :=
  (accepts_after_noise_iff stationNine.construct rfl [0x55, 0xAA, 0xAA] (by decide) frameNine
    (by decide) (.inl rfl)).2 (by decide)

/-- Behind a single octet `0xAA`, which is no preamble, the frame is lost. -/
theorem frame_after_single_b0_lost :
    Receiver.NoPreamble [0xAA] ∧ stationNine.construct.state = .stWait ∧
      frameNine.data.length = 1 ∧ frameNine.dest = stationNine.construct.selfAddress ∧
      (stationNine.construct.feed ([0xAA] ++ frameNine.bytes)).1.getLast? ≠ some 2 ∧
      ¬ stationNine.construct.Accepts ([0xAA] ++ frameNine.bytes) frameNine := by
  have hlast : (stationNine.construct.feed ([0xAA] ++ frameNine.bytes)).1.getLast? ≠ some 2 := by
    decide +kernel
  exact ⟨by decide, rfl, rfl, rfl, hlast, fun h => hlast h.1⟩

end DataIOLayer2

end KS3.DataIO
