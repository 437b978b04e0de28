import KS3.Foundations.Simulation

/-!
# The PHY and the status of the link

`lpcPHYStsPoll` reads two registers of the PHY over the MII, one step per call: it starts a reading
of the status register, and when the MII is no longer busy it takes the value and starts a reading
of the register with speed and duplex; when that is done it brings the flags `physts` up to date.
A flag says that they have changed, and lasts until the next call. `emac_app::processLinkStatus`
acts on that flag: it sets speed and duplex of the Ethernet controller, and `linkStatus`.

`Link` is what this is for: two registers are read in turn, and what was read last is known.

* `processLinkStatus_spec`: a poll of the code is a poll of `Link`.
* `linkStatus_follows_phy`: in every run, the code says that the status has changed exactly when a
  complete reading differs from the one before; and its data are those of the last reading.
-/

namespace KS3.Net

/-! ## Registers and flags -/

/-- `LAN8_BSR_REG`. -/
def lan8BsrReg : UInt8 := 0x1

/-- `LAN8_PHYSPLCTL_REG`. -/
def lan8PhysplctlReg : UInt8 := 0x1F

/-- `LAN8_LINK_STATUS`. -/
def lan8LinkStatus : UInt16 := 0x4

/-- `LAN8_SPEEDMASK`. -/
def lan8Speedmask : UInt16 := 0x1C

/-- `LAN8_SPEED10F`. -/
def lan8Speed10F : UInt16 := 0x14

/-- `LAN8_SPEED100H`. -/
def lan8Speed100H : UInt16 := 0x8

/-- `LAN8_SPEED10H`. -/
def lan8Speed10H : UInt16 := 0x4

/-- `PHY_LINK_BUSY`. -/
def phyLinkBusy : UInt32 := 0x2

/-- `PHY_LINK_CHANGED`. -/
def phyLinkChanged : UInt32 := 0x4

/-- `PHY_LINK_CONNECTED`. -/
def phyLinkConnected : UInt32 := 0x8

/-- `PHY_LINK_SPEED100`. -/
def phyLinkSpeed100 : UInt32 := 0x10

/-- `PHY_LINK_FULLDUPLX`. -/
def phyLinkFullduplx : UInt32 := 0x20

/-- The flags whose changes are reported. -/
def phyLinkMask : UInt32 := phyLinkSpeed100 ||| phyLinkFullduplx ||| phyLinkConnected

/-- The MII at the time of a call: what `Chip_ENET_IsMIIBusy` returns, and the registers of the PHY
that a reading gives. -/
structure Mii where
  busy : Bool
  reg : UInt8 → UInt16

/-! ## The driver of the PHY -/

/-- The static data of the driver, with the register whose reading was started last. -/
structure Phy where
  physts : UInt32
  olddphysts : UInt32
  phyustate : ℕ
  sts : UInt16
  reading : UInt8

namespace Phy

/-- What `lpc_phy_init` does to the data of the driver. -/
def lpcPhyInit (p : Phy) : Phy := { p with physts := 0, olddphysts := 0, phyustate := 0 }

/-- `Chip_ENET_StartMIIRead`. -/
def startMIIRead (p : Phy) (reg : UInt8) : Phy := { p with reading := reg }

/-- `smsc_update_phy_sts`. -/
def smscUpdatePhySts (p : Phy) (linksts sdsts : UInt16) : Phy :=
  let physts :=
    if linksts &&& lan8LinkStatus ≠ 0 then p.physts ||| phyLinkConnected
    else p.physts &&& ~~~phyLinkConnected
  let speed := sdsts &&& lan8Speedmask
  let physts :=
    if speed = lan8Speed10F then (physts &&& ~~~phyLinkSpeed100) ||| phyLinkFullduplx
    else if speed = lan8Speed100H then (physts ||| phyLinkSpeed100) &&& ~~~phyLinkFullduplx
    else if speed = lan8Speed10H then (physts &&& ~~~phyLinkSpeed100) &&& ~~~phyLinkFullduplx
    else (physts ||| phyLinkSpeed100) ||| phyLinkFullduplx
  if physts &&& phyLinkMask ≠ p.olddphysts &&& phyLinkMask then
    { p with olddphysts := physts, physts := physts ||| phyLinkChanged }
  else
    { p with physts := physts }

/-- `lpcPHYStsPoll`; it returns `physts`. -/
def lpcPHYStsPoll (p : Phy) (mii : Mii) : Phy :=
  match p.phyustate with
  | 1 =>
    if !mii.busy then
      { ({ p with sts := mii.reg p.reading } : Phy).startMIIRead lan8PhysplctlReg with
        phyustate := 2 }
    else
      p
  | 2 =>
    if !mii.busy then
      let p := { p with physts := p.physts &&& ~~~phyLinkBusy }
      { p.smscUpdatePhySts p.sts (mii.reg p.reading) with phyustate := 0 }
    else
      p
  | _ =>
    let p := p.startMIIRead lan8BsrReg
    { p with physts := (p.physts &&& ~~~phyLinkChanged) ||| phyLinkBusy, phyustate := 1 }

end Phy

/-! ## The link status -/

/-- The data of `emac_app` that depend on the link, with the settings of the Ethernet controller
and the flag of the network interface. -/
structure EmacApp where
  linkStatus : UInt32
  phy : Phy
  speed100 : Bool
  fullDuplex : Bool
  netifLinkUp : Bool

namespace EmacApp

/-- `init`, with what `netif_add` and `lpc_enetif_init` do to these data: the interface comes up
without a link, and the controller is set to 100 Mbit/s and full duplex. -/
def init (e : EmacApp) : EmacApp where
  linkStatus := 0
  phy := e.phy.lpcPhyInit
  speed100 := true
  fullDuplex := true
  netifLinkUp := false

/-- `processLinkStatus`. -/
def processLinkStatus (e : EmacApp) (mii : Mii) : Bool × EmacApp :=
  let phy := e.phy.lpcPHYStsPoll mii
  let physts := phy.physts
  let e := { e with phy := phy }
  let e :=
    if physts &&& phyLinkChanged ≠ 0 then
      if physts &&& phyLinkConnected ≠ 0 then
        { e with
          speed100 := physts &&& phyLinkSpeed100 ≠ 0
          fullDuplex := physts &&& phyLinkFullduplx ≠ 0
          netifLinkUp := true
          linkStatus := 1 }
      else
        { e with netifLinkUp := false, linkStatus := 0 }
    else
      e
  (physts &&& phyLinkChanged ≠ 0, e)

end EmacApp

/-! ## What it is for -/

/-- What a complete reading says. -/
structure Reading where
  link : Bool
  speed100 : Bool
  fullDuplex : Bool
  deriving DecidableEq

/-- What the two registers say. Of the eight values of the field only three mean less than
100 Mbit/s with full duplex. -/
def Reading.ofRegs (linksts sdsts : UInt16) : Reading :=
  let speed := sdsts &&& lan8Speedmask
  { link := linksts &&& lan8LinkStatus ≠ 0
    speed100 := speed ≠ lan8Speed10F ∧ speed ≠ lan8Speed10H
    fullDuplex := speed ≠ lan8Speed100H ∧ speed ≠ lan8Speed10H }

/-- Where the reading of the registers stands: nothing started, the status register started, or the
status register read and the other one started. -/
inductive Phase
  | idle
  | status
  | special (linksts : UInt16)

/-- A PHY whose two registers are read in turn, and the last complete reading. -/
structure Link where
  phase : Phase
  last : Reading

namespace Link

/-- A PHY of which nothing has been read. -/
def init : Link := ⟨.idle, ⟨false, false, false⟩⟩

/-- A poll: the reading that it completes, if it does. -/
def completes (l : Link) (mii : Mii) : Option Reading :=
  match l.phase with
  | .special linksts =>
    if mii.busy then none else some (.ofRegs linksts (mii.reg lan8PhysplctlReg))
  | _ => none

/-- The phase after a poll. -/
def next (l : Link) (mii : Mii) : Phase :=
  match l.phase with
  | .idle => .status
  | .status => if mii.busy then .status else .special (mii.reg lan8BsrReg)
  | .special linksts => if mii.busy then .special linksts else .idle

/-- A poll: whether it completes a reading that differs from the last one, and the PHY after it. -/
def poll (l : Link) (mii : Mii) : Bool × Link :=
  let last := (l.completes mii).getD l.last
  (last ≠ l.last, ⟨l.next mii, last⟩)

end Link

/-! ## The code polls as `Link` does -/

namespace Reading

/-- The flags of a reading. -/
def flags (r : Reading) : UInt32 :=
  (if r.link then phyLinkConnected else 0) ||| (if r.speed100 then phyLinkSpeed100 else 0) |||
    if r.fullDuplex then phyLinkFullduplx else 0

/-- A change of the reading is a change of the flags. -/
theorem flags_inj {r r' : Reading} : r.flags = r'.flags ↔ r = r' := by
  obtain ⟨l, s, d⟩ := r
  obtain ⟨l', s', d'⟩ := r'
  cases l <;> cases s <;> cases d <;> cases l' <;> cases s' <;> cases d' <;> decide

theorem flags_and_mask (r : Reading) : r.flags &&& phyLinkMask = r.flags := by
  obtain ⟨l, s, d⟩ := r
  cases l <;> cases s <;> cases d <;> decide

/-- The flags before the next call, with or without the one for a change: `BUSY` is not among them,
and the next call clears the change. -/
theorem flags_clear (r : Reading) (changed : Bool) :
    ((r.flags ||| if changed then phyLinkChanged else 0) &&& ~~~phyLinkChanged) ||| phyLinkBusy =
      r.flags ||| phyLinkBusy := by
  obtain ⟨l, s, d⟩ := r
  cases l <;> cases s <;> cases d <;> cases changed <;> decide

theorem flags_busy (r : Reading) : (r.flags ||| phyLinkBusy) &&& ~~~phyLinkBusy = r.flags := by
  obtain ⟨l, s, d⟩ := r
  cases l <;> cases s <;> cases d <;> decide

theorem flags_changed (r : Reading) (changed : Bool) :
    (r.flags ||| if changed then phyLinkChanged else 0) &&& phyLinkChanged ≠ 0 ↔ changed := by
  obtain ⟨l, s, d⟩ := r
  cases l <;> cases s <;> cases d <;> cases changed <;> decide

theorem flags_busy_changed (r : Reading) : (r.flags ||| phyLinkBusy) &&& phyLinkChanged = 0 := by
  obtain ⟨l, s, d⟩ := r
  cases l <;> cases s <;> cases d <;> decide

/-- What `processLinkStatus` reads from the flags after a change. -/
theorem flags_bits (r : Reading) :
    decide ((r.flags ||| phyLinkChanged) &&& phyLinkConnected ≠ 0) = r.link ∧
    decide ((r.flags ||| phyLinkChanged) &&& phyLinkSpeed100 ≠ 0) = r.speed100 ∧
    decide ((r.flags ||| phyLinkChanged) &&& phyLinkFullduplx ≠ 0) = r.fullDuplex := by
  obtain ⟨l, s, d⟩ := r
  cases l <;> cases s <;> cases d <;> decide

end Reading

namespace Reading

/-- The flags with the one for the link set or cleared, and then those for speed and duplex, in each
of the four ways. -/
theorem flags_set_link (r : Reading) (link : Bool) :
    (if link then r.flags ||| phyLinkConnected else r.flags &&& ~~~phyLinkConnected) =
      flags { r with link := link } := by
  obtain ⟨l, s, d⟩ := r
  cases l <;> cases s <;> cases d <;> cases link <;> decide

theorem flags_set_speed (r : Reading) :
    (r.flags &&& ~~~phyLinkSpeed100) ||| phyLinkFullduplx = flags ⟨r.link, false, true⟩ ∧
    (r.flags ||| phyLinkSpeed100) &&& ~~~phyLinkFullduplx = flags ⟨r.link, true, false⟩ ∧
    (r.flags &&& ~~~phyLinkSpeed100) &&& ~~~phyLinkFullduplx = flags ⟨r.link, false, false⟩ ∧
    (r.flags ||| phyLinkSpeed100) ||| phyLinkFullduplx = flags ⟨r.link, true, true⟩ := by
  obtain ⟨l, s, d⟩ := r
  cases l <;> cases s <;> cases d <;> decide

end Reading

namespace Phy

/-- The flags that `smsc_update_phy_sts` computes are those of the new reading. -/
theorem update_flags (r : Reading) (linksts sdsts : UInt16) :
    let physts :=
      if linksts &&& lan8LinkStatus ≠ 0 then r.flags ||| phyLinkConnected
      else r.flags &&& ~~~phyLinkConnected
    let speed := sdsts &&& lan8Speedmask
    (if speed = lan8Speed10F then (physts &&& ~~~phyLinkSpeed100) ||| phyLinkFullduplx
      else if speed = lan8Speed100H then (physts ||| phyLinkSpeed100) &&& ~~~phyLinkFullduplx
      else if speed = lan8Speed10H then (physts &&& ~~~phyLinkSpeed100) &&& ~~~phyLinkFullduplx
      else (physts ||| phyLinkSpeed100) ||| phyLinkFullduplx) =
      (Reading.ofRegs linksts sdsts).flags := by
  intro physts speed
  have hlink : physts =
      Reading.flags { r with link := decide (linksts &&& lan8LinkStatus ≠ 0) } := by
    rw [← Reading.flags_set_link]
    simp only [decide_eq_true_eq, physts]
  obtain ⟨h10f, h100h, h10h, h100f⟩ :=
    Reading.flags_set_speed { r with link := decide (linksts &&& lan8LinkStatus ≠ 0) }
  have hofRegs : Reading.ofRegs linksts sdsts =
      ⟨decide (linksts &&& lan8LinkStatus ≠ 0),
        decide (speed ≠ lan8Speed10F ∧ speed ≠ lan8Speed10H),
        decide (speed ≠ lan8Speed100H ∧ speed ≠ lan8Speed10H)⟩ := rfl
  rw [hlink, h10f, h100h, h10h, h100f, hofRegs]
  by_cases hf : speed = lan8Speed10F
  · rw [hf]
    rfl
  by_cases hh : speed = lan8Speed100H
  · rw [hh]
    rfl
  by_cases hl : speed = lan8Speed10H
  · rw [hl]
    rfl
  simp only [hf, hh, hl, if_false, ne_eq, not_false_eq_true, and_self, decide_true]

/-- **What `smsc_update_phy_sts` does** to the flags of a reading: they become those of the new one,
with the flag for a change if it is another. -/
theorem smscUpdatePhySts_eq {p : Phy} {r : Reading} (hphysts : p.physts = r.flags)
    (hold : p.olddphysts = r.flags) (linksts sdsts : UInt16) :
    p.smscUpdatePhySts linksts sdsts =
      { p with
        olddphysts := (Reading.ofRegs linksts sdsts).flags
        physts := (Reading.ofRegs linksts sdsts).flags |||
          if decide (Reading.ofRegs linksts sdsts ≠ r) then phyLinkChanged else 0 } := by
  have hflags := update_flags r linksts sdsts
  simp only at hflags
  rw [smscUpdatePhySts, hphysts, hold]
  simp only [hflags, Reading.flags_and_mask]
  by_cases hsame : Reading.ofRegs linksts sdsts = r
  · rw [if_neg (by rw [hsame]; exact fun h => h rfl), if_neg (by simpa using hsame), hsame,
      ← hold]
    simp
  · rw [if_pos fun h => hsame (Reading.flags_inj.1 h), if_pos (by simpa using hsame)]

/-- The driver is where `Link` says: the register that is being read, what was read of the status
register, and the flags of the last reading, to which `BUSY` is added while a reading is under way
and a change may be added when it has just been completed. -/
structure At (l : Link) (changed : Bool) (p : Phy) : Prop where
  old : p.olddphysts = l.last.flags
  flags : p.physts = l.last.flags |||
    match l.phase with
    | .idle => if changed then phyLinkChanged else 0
    | _ => phyLinkBusy
  phase : match l.phase with
    | .idle => p.phyustate = 0
    | .status => p.phyustate = 1 ∧ p.reading = lan8BsrReg
    | .special linksts => p.phyustate = 2 ∧ p.reading = lan8PhysplctlReg ∧ p.sts = linksts
  busy : l.phase ≠ .idle → changed = false

theorem at_init (p : Phy) : At .init false p.lpcPhyInit := ⟨rfl, rfl, rfl, fun _ => rfl⟩

/-- **A poll of the driver is a poll of `Link`.** -/
theorem At.lpcPHYStsPoll {l : Link} {changed : Bool} {p : Phy} (h : At l changed p) (mii : Mii) :
    At (l.poll mii).2 (l.poll mii).1 (p.lpcPHYStsPoll mii) := by
  obtain ⟨phase, last⟩ := l
  obtain ⟨hold, hflags, hphase, hbusy⟩ := h
  cases phase with
  | idle =>
    simp only at hphase hflags
    have hpoll : Link.poll ⟨.idle, last⟩ mii = (false, ⟨.status, last⟩) := by
      simp [Link.poll, Link.completes, Link.next]
    rw [hpoll, Phy.lpcPHYStsPoll, hphase]
    exact ⟨hold, by simpa only [startMIIRead, hflags] using last.flags_clear changed, ⟨rfl, rfl⟩,
      fun _ => rfl⟩
  | status =>
    obtain ⟨hstate, hreg⟩ := hphase
    cases hmii : mii.busy with
    | true =>
      have hpoll : Link.poll ⟨.status, last⟩ mii = (false, ⟨.status, last⟩) := by
        simp [Link.poll, Link.completes, Link.next, hmii]
      rw [hpoll, Phy.lpcPHYStsPoll, hstate]
      simp only [hmii, Bool.not_true, Bool.false_eq_true, if_false]
      exact ⟨hold, hflags, ⟨hstate, hreg⟩, fun _ => rfl⟩
    | false =>
      have hpoll : Link.poll ⟨.status, last⟩ mii =
          (false, ⟨.special (mii.reg lan8BsrReg), last⟩) := by
        simp [Link.poll, Link.completes, Link.next, hmii]
      rw [hpoll, Phy.lpcPHYStsPoll, hstate]
      simp only [hmii, Bool.not_false, if_true, hreg]
      exact ⟨hold, hflags, ⟨rfl, rfl, rfl⟩, fun _ => rfl⟩
  | special linksts =>
    obtain ⟨hstate, hreg, hsts⟩ := hphase
    cases hmii : mii.busy with
    | true =>
      have hpoll : Link.poll ⟨.special linksts, last⟩ mii = (false, ⟨.special linksts, last⟩) := by
        simp [Link.poll, Link.completes, Link.next, hmii]
      rw [hpoll, Phy.lpcPHYStsPoll, hstate]
      simp only [hmii, Bool.not_true, Bool.false_eq_true, if_false]
      exact ⟨hold, hflags, ⟨hstate, hreg, hsts⟩, fun _ => rfl⟩
    | false =>
      set r := Reading.ofRegs linksts (mii.reg lan8PhysplctlReg) with hr
      have hpoll : Link.poll ⟨.special linksts, last⟩ mii = (decide (r ≠ last), ⟨.idle, r⟩) := by
        simp [Link.poll, Link.completes, Link.next, hmii, ← hr]
      rw [hpoll, Phy.lpcPHYStsPoll, hstate]
      have hclear : p.physts &&& ~~~phyLinkBusy = last.flags := by
        rw [hflags]
        exact last.flags_busy
      have hupdate := smscUpdatePhySts_eq
        (p := ⟨last.flags, p.olddphysts, 2, linksts, lan8PhysplctlReg⟩) rfl hold linksts
        (mii.reg lan8PhysplctlReg)
      simp only [hmii, Bool.not_false, if_true, hclear]
      rw [hreg, hsts, hupdate, ← hr]
      exact ⟨rfl, rfl, rfl, fun h => absurd rfl h⟩

/-- The flag for a change. -/
theorem At.changed_iff {l : Link} {changed : Bool} {p : Phy} (h : At l changed p) :
    p.physts &&& phyLinkChanged ≠ 0 ↔ changed := by
  obtain ⟨phase, last⟩ := l
  rw [h.flags]
  cases phase with
  | idle => exact last.flags_changed changed
  | status => simpa [h.busy (by simp)] using last.flags_busy_changed
  | special linksts => simpa [h.busy (by simp)] using last.flags_busy_changed

/-- The flags after a change. -/
theorem At.flags_of_changed {l : Link} {p : Phy} (h : At l true p) :
    p.physts = l.last.flags ||| phyLinkChanged := by
  obtain ⟨phase, last⟩ := l
  rw [h.flags]
  cases phase with
  | idle => rfl
  | status => exact absurd (h.busy (by simp)) (by simp)
  | special linksts => exact absurd (h.busy (by simp)) (by simp)

end Phy

/-- Without a change the last reading stays. -/
theorem Link.last_poll {l : Link} {mii : Mii} (h : (l.poll mii).1 = false) :
    (l.poll mii).2.last = l.last := by
  simpa [Link.poll] using h

namespace EmacApp

/-- The data of `emac_app` are those of the last reading; speed and duplex only when there is a
link. -/
structure Follows (e : EmacApp) (l : Link) : Prop where
  phy : ∃ changed, Phy.At l changed e.phy
  linkStatus : e.linkStatus = if l.last.link then 1 else 0
  netif : e.netifLinkUp = l.last.link
  settings : l.last.link → e.speed100 = l.last.speed100 ∧ e.fullDuplex = l.last.fullDuplex

theorem follows_init (e : EmacApp) : e.init.Follows .init :=
  ⟨⟨false, e.phy.at_init⟩, rfl, rfl, nofun⟩

/-- **A poll of the code is a poll of `Link`**: `processLinkStatus` returns whether a complete
reading differs from the one before, and its data follow the reading. -/
theorem processLinkStatus_spec {e : EmacApp} {l : Link} (h : e.Follows l) (mii : Mii) :
    (e.processLinkStatus mii).1 = (l.poll mii).1 ∧
      (e.processLinkStatus mii).2.Follows (l.poll mii).2 := by
  obtain ⟨⟨changed, hphy⟩, hstatus, hnetif, hsettings⟩ := h
  have hat := hphy.lpcPHYStsPoll mii
  obtain ⟨hlink, hspeed, hduplex⟩ := (l.poll mii).2.last.flags_bits
  unfold processLinkStatus
  cases hchanged : (l.poll mii).1 with
  | false =>
    have hclear : ¬ (e.phy.lpcPHYStsPoll mii).physts &&& phyLinkChanged ≠ 0 := by
      rw [hat.changed_iff, hchanged]
      simp
    have hlast := Link.last_poll hchanged
    simp only [if_neg hclear]
    refine ⟨by simpa using hclear, ⟨_, hat⟩, ?_, ?_, ?_⟩
    · rw [hlast]
      exact hstatus
    · rw [hlast]
      exact hnetif
    · rw [hlast]
      exact hsettings
  | true =>
    have hset : (e.phy.lpcPHYStsPoll mii).physts &&& phyLinkChanged ≠ 0 := by
      rw [hat.changed_iff, hchanged]
    rw [hchanged] at hat
    have hflags := hat.flags_of_changed
    simp only [if_pos hset]
    rw [hflags] at hset
    simp only [hflags, hspeed, hduplex]
    cases hup : (l.poll mii).2.last.link with
    | false =>
      rw [hup, decide_eq_false_iff_not] at hlink
      rw [if_neg hlink]
      exact ⟨by simpa using hset, ⟨_, hat⟩, by rw [hup]; rfl, hup.symm, by simp [hup]⟩
    | true =>
      rw [hup, decide_eq_true_eq] at hlink
      rw [if_pos hlink]
      exact ⟨by simpa using hset, ⟨_, hat⟩, by rw [hup]; rfl, hup.symm, fun _ => ⟨rfl, rfl⟩⟩

/-- The calls. -/
inductive Call
  | init
  | processLinkStatus (mii : Mii)

/-- A call, and what it returns. -/
def call (e : EmacApp) : Call → Bool × EmacApp
  | .init => (false, e.init)
  | .processLinkStatus mii => e.processLinkStatus mii

end EmacApp

/-- What a call is for `Link`. -/
def Link.call (l : Link) : EmacApp.Call → Bool × Link
  | .init => (false, .init)
  | .processLinkStatus mii => l.poll mii

open Machine in
/-- **The link status follows the PHY.** After `init`, for every sequence of polls and further
initialisations and whatever the MII answers: `processLinkStatus` returns true exactly when it
completes a reading of the PHY that differs from the reading before, `linkStatus` and the flag of
the network interface are the link of the last complete reading, and while there is a link the
controller is set to the speed and the duplex mode of that reading. -/
theorem linkStatus_follows_phy (e : EmacApp) (calls : List EmacApp.Call) :
    let after := after EmacApp.call e.init calls
    let last := (Machine.after Link.call .init calls).last
    answers EmacApp.call e.init calls = answers Link.call .init calls ∧
      after.linkStatus = (if last.link then 1 else 0) ∧ after.netifLinkUp = last.link ∧
      (last.link → after.speed100 = last.speed100 ∧ after.fullDuplex = last.fullDuplex) := by
  have hstep : ∀ (e : EmacApp) (l : Link) (c : EmacApp.Call), e.Follows l →
      (e.call c).1 = (l.call c).1 ∧ (e.call c).2.Follows (l.call c).2 := by
    intro e l c h
    cases c with
    | init => exact ⟨rfl, e.follows_init⟩
    | processLinkStatus mii => exact EmacApp.processLinkStatus_spec h mii
  obtain ⟨hanswers, hafter⟩ := simulation hstep e.follows_init calls
  exact ⟨hanswers, hafter.linkStatus, hafter.netif, hafter.settings⟩

end KS3.Net
