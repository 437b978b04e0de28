import KS3.Buffers.Storage

/-!
# The search for a free buffer along runs

Whether `lockFreeBuffer` goes for a free buffer depends on what has happened since the last reset.
`Watch` notes how often it has been called and which full buffer was released last.

At first `iFree` counts the searches, and a search goes on by one while buffer 0 is full. So the
searches take buffer 0, then the buffers 2, 3, … in this order; once buffer 0 has been released,
search number `k` takes buffer `k`, which is the one of the search before if buffer 0 was full until
then. From the 31st search on there is one buffer on the count after a release and none after a
search, and a release sets `iFree` to the buffer released.

* `Tracked`: what holds along a run whose searches were all right;
* `Tracked.lockOk_iff`: the next search is right exactly when it is `Clear`, a condition on the
  history and on which buffers are full;
* `storage_iff`: the searches of a run are right, and stored blocks stay as they were written,
  exactly when all searches are clear.
-/

namespace KS3.Buffers

/-- The full buffer that a message releases. -/
def TDataBuffersContainer.releases (c : TDataBuffersContainer) (msg : Mem) : Option ℕ :=
  if msg.word 2 = msgAppDataAcknowledge then
    (c.findPacket (msg.word 6)).filter fun n => ¬ c.IsFree n
  else
    none

namespace TDataBuffersContainer

variable {c : TDataBuffersContainer} {msg : Mem}

/-- A message that releases no full buffer changes neither the count, nor `iFree`, nor which buffers
are free. -/
theorem releases_none (h : c.releases msg = none) (src : UInt16) :
    (c.extMsgAppTypeHandler msg src).2.nFree = c.nFree ∧
      (c.extMsgAppTypeHandler msg src).2.iFree = c.iFree ∧
      ∀ i, (c.extMsgAppTypeHandler msg src).2.IsFree i ↔ c.IsFree i := by
  obtain ⟨hack, n, hfind, heq⟩ | ⟨-, k, heq⟩ := c.extMsgAppTypeHandler_cases msg src
  · have hfree : c.IsFree n := by simpa [releases, hack, hfind] using h
    rw [heq, releaseBuffer_of_free hfree]
    refine ⟨rfl, rfl, fun i => ?_⟩
    rw [isFree_setBuffer_free, or_iff_right_iff_imp]
    rintro rfl
    exact hfree
  · rw [heq]
    exact ⟨rfl, rfl, fun _ => Iff.rfl⟩

/-- **A message that releases a full buffer** leaves the count as it is unless it was zero, and
sets `iFree` to the buffer when the count is one then. -/
theorem releases_some {n : ℕ} (h : c.releases msg = some n) (src : UInt16) :
    n < kMaxSize ∧ ¬ c.IsFree n ∧
      (c.nFree ≤ kMaxSize → (c.extMsgAppTypeHandler msg src).2.nFree = max c.nFree 1) ∧
      (c.extMsgAppTypeHandler msg src).2.iFree = (if c.nFree ≤ 1 then n else c.iFree) ∧
      ∀ i, (c.extMsgAppTypeHandler msg src).2.IsFree i ↔ i = n ∨ c.IsFree i := by
  rw [releases] at h
  split_ifs at h with hack
  obtain ⟨hfind, hfull⟩ := Option.filter_eq_some_iff.1 h
  have hfull : ¬ c.IsFree n := by simpa using hfull
  obtain ⟨-, m, hfind', heq⟩ | ⟨hnone, -⟩ := c.extMsgAppTypeHandler_cases msg src
  · obtain rfl : n = m := Option.some.inj (hfind.symm.trans hfind')
    rw [heq, releaseBuffer_of_full hfull]
    refine ⟨(findPacket_spec hfind).1, hfull, fun hle => ?_, ?_, fun i => isFree_setBuffer_free⟩
    · simp only [setBuffer, countFree, releaseFull, kMaxSize] at hle ⊢
      split_ifs <;> omega
    · simp only [setBuffer, countFree, releaseFull, kMaxSize]
      split_ifs <;> omega
  · rw [hnone hack] at hfind
    cases hfind

end TDataBuffersContainer

open TDataBuffersContainer

/-! ## Histories -/

/-- A store with what has happened since the last reset: how often a free buffer has been searched
for, and the full buffer that was released last, if no search has followed. -/
structure Watch where
  store : Store
  searches : ℕ
  released : Option ℕ

namespace Watch

/-- The beginning of a run. -/
def init (memory : ℕ → TDataBuffer) : Watch := ⟨.init memory, 0, none⟩

/-- One operation. -/
def step (w : Watch) : Op → Watch
  | .writeBuffer buffer dataId =>
    if dataId = kDataId.toUInt32 then
      ⟨w.store.step (.writeBuffer buffer dataId), w.searches + 1, none⟩
    else
      { w with store := w.store.step (.writeBuffer buffer dataId) }
  | .message msg src =>
    { w with
      store := w.store.step (.message msg src)
      released := (w.store.container.releases msg).or w.released }
  | .reset => ⟨w.store.step .reset, 0, none⟩

/-- A search is clear if
* there have been at most 30 searches, and buffer 0 is full or the buffer with the number of the
  searches is free; or
* there have been 31, no full buffer has been released since the last one, and buffer 0 is free; or
* there have been 31 or more, a full buffer has been released since the last one, and buffer 0 is
  free or the buffer behind the one that was released last is there and free. -/
def Clear (w : Watch) : Prop :=
  w.searches ≤ 30 ∧
      (¬ w.store.container.IsFree 0 ∨ w.store.container.IsFree w.searches) ∨
    w.searches = 31 ∧ w.released = none ∧ w.store.container.IsFree 0 ∨
    31 ≤ w.searches ∧ ∃ n, w.released = some n ∧
      (w.store.container.IsFree 0 ∨ n < 31 ∧ w.store.container.IsFree (n + 1))

/-- Where a run is in the use of its count. -/
inductive Phase (w : Watch) : Prop
  /-- The searches are counted by `iFree`, and the buffers behind them have not been used. -/
  | early (few : w.searches ≤ 30) (nFree : w.store.container.nFree = 32 - w.searches)
      (iFree : w.store.container.iFree = w.searches)
      (unused : ∀ i < kMaxSize, w.searches < i ∨ w.searches = 0 → w.store.container.IsFree i)
  /-- One buffer is left on the count. -/
  | last (searches : w.searches = 31) (released : w.released = none)
      (nFree : w.store.container.nFree = 1) (iFree : w.store.container.iFree = 31)
      (free : w.store.container.IsFree 0 → w.store.container.IsFree 31)
  /-- One buffer is on the count again. -/
  | refilled (n : ℕ) (lt : n < kMaxSize) (many : 31 ≤ w.searches) (released : w.released = some n)
      (nFree : w.store.container.nFree = 1) (iFree : w.store.container.iFree = n)
      (free : w.store.container.IsFree n) (second : n = 0 → w.store.container.IsFree 1)
  /-- The count is used up. -/
  | spent (many : 32 ≤ w.searches) (released : w.released = none)
      (nFree : w.store.container.nFree = 0)

/-- **What holds along a run** whose searches were all right: buffer 1 is free while buffer 0 is
full, so that no search passes more than one buffer. -/
structure Tracked (w : Watch) : Prop where
  index : w.store.container.iFree < kMaxSize
  second : ¬ w.store.container.IsFree 0 → w.store.container.IsFree 1
  phase : w.Phase

variable {w : Watch}

/-- There is always a free buffer. -/
theorem Tracked.firstFree_lt (h : w.Tracked) : w.store.container.firstFree < kMaxSize := by
  rw [firstFree_eq h.second]
  split_ifs <;> decide

/-- A search goes for the buffer at `iFree` or, while buffer 0 is full, for the one behind it. -/
theorem Tracked.lockIndex_eq (h : w.Tracked) : w.store.container.lockIndex =
    if w.store.container.IsFree 0 then w.store.container.iFree
    else (w.store.container.iFree + 1) % kMaxSize := by
  rw [lockIndex, firstFree_eq h.second]
  split_ifs
  · exact Nat.mod_eq_of_lt h.index
  · rfl

/-- **The next search** is right exactly when it is clear. -/
theorem Tracked.lockOk_iff (h : w.Tracked) : Store.LockOk w.store.container ↔ w.Clear := by
  rw [Store.lockOk_iff h.index h.firstFree_lt, h.lockIndex_eq, Clear]
  by_cases h₀ : w.store.container.IsFree 0
  · rw [if_pos h₀]
    cases h.phase with
    | early few nFree iFree _ =>
      rw [nFree, iFree]
      have hcount : 32 - w.searches ≠ 0 := by omega
      have hfew : w.searches ≠ 31 ∧ ¬ 31 ≤ w.searches := by omega
      simp [hcount, few, h₀, hfew]
    | last searches released nFree iFree free =>
      rw [nFree, iFree]
      simp [searches, released, h₀, free h₀]
    | refilled n _ many released nFree iFree free _ =>
      rw [nFree, iFree]
      simp [many, released, h₀, free]
    | spent many released nFree =>
      rw [nFree]
      have hmany : ¬ w.searches ≤ 30 ∧ w.searches ≠ 31 := by omega
      simp [released, hmany]
  · rw [if_neg h₀]
    cases h.phase with
    | early few nFree iFree unused =>
      rw [nFree, iFree, Nat.mod_eq_of_lt (by simp only [kMaxSize]; omega)]
      have hcount : 32 - w.searches ≠ 0 := by omega
      have hnext := unused (w.searches + 1) (by simp only [kMaxSize]; omega) (.inl (by omega))
      simp [hcount, few, h₀, hnext]
    | last searches released nFree iFree _ =>
      have hindex : (31 + 1) % kMaxSize = 0 := rfl
      rw [nFree, iFree, hindex]
      simp [searches, released, h₀]
    | refilled n lt many released nFree iFree _ _ =>
      rw [nFree, iFree]
      have hmany : ¬ w.searches ≤ 30 := by omega
      have hlast : n < 31 ∨ n = 31 := by simp only [kMaxSize] at lt; omega
      rcases hlast with hlast | rfl
      · rw [Nat.mod_eq_of_lt (by simp only [kMaxSize]; omega)]
        simp [many, released, h₀, hmany, hlast]
      · have hindex : (31 + 1) % kMaxSize = 0 := rfl
        rw [hindex]
        simp [released, h₀, hmany]
    | spent many released nFree =>
      rw [nFree]
      have hmany : ¬ w.searches ≤ 30 := by omega
      simp [released, h₀, hmany]

/-! ## One operation -/

/-- What the phase depends on. -/
theorem Tracked.congr {w' : Watch} (h : w.Tracked)
    (hn : w'.store.container.nFree = w.store.container.nFree)
    (hi : w'.store.container.iFree = w.store.container.iFree)
    (hfree : ∀ i, w'.store.container.IsFree i ↔ w.store.container.IsFree i)
    (hsearches : w'.searches = w.searches) (hreleased : w'.released = w.released) :
    w'.Tracked where
  index := hi ▸ h.index
  second := by
    rw [hfree, hfree]
    exact h.second
  phase := by
    cases h.phase with
    | early few nFree iFree unused =>
      exact .early (hsearches ▸ few) (by rw [hn, hsearches, nFree]) (by rw [hi, hsearches, iFree])
        (by simpa only [hfree, hsearches] using unused)
    | last searches released nFree iFree free =>
      exact .last (hsearches.trans searches) (hreleased.trans released) (hn.trans nFree)
        (hi.trans iFree) (by simpa only [hfree] using free)
    | refilled n lt many released nFree iFree free second =>
      exact .refilled n lt (hsearches ▸ many) (hreleased.trans released) (hn.trans nFree)
        (hi.trans iFree) ((hfree n).2 free) (by simpa only [hfree] using second)
    | spent many released nFree =>
      exact .spent (hsearches ▸ many) (hreleased.trans released) (hn.trans nFree)

/-- What a search leaves behind when the count is not zero. -/
theorem exists_marked (h : w.Tracked) (hcount : w.store.container.nFree ≠ 0)
    (buffer : TDataBuffer) :
    ∃ b, (w.store.step (.writeBuffer buffer kDataId.toUInt32)).container =
      w.store.container.takeFree.setBuffer w.store.container.lockIndex ⟨b, .stFull⟩ := by
  simp only [Store.step]
  rw [writeBuffer_eq h.index, if_neg hcount, if_pos h.firstFree_lt]
  by_cases hsize : buffer.dataSize ≤ kMaxDataSize
  · rw [if_pos hsize]
    exact ⟨_, rfl⟩
  · rw [if_neg hsize]
    exact ⟨_, rfl⟩

/-- While a buffer is on the count and `iFree` is 0, the first two buffers are free. -/
theorem Tracked.free_of_iFree (h : w.Tracked) (hcount : w.store.container.nFree ≠ 0)
    (hzero : w.store.container.iFree = 0) :
    w.store.container.IsFree 0 ∧ w.store.container.IsFree 1 := by
  cases h.phase with
  | early _ _ iFree unused =>
    have hnone : w.searches = 0 := iFree.symm.trans hzero
    exact ⟨unused 0 (by decide) (.inr hnone), unused 1 (by decide) (.inr hnone)⟩
  | last _ _ _ iFree _ => exact absurd (iFree.symm.trans hzero) (by decide)
  | refilled n _ _ _ _ iFree free second =>
    obtain rfl : n = 0 := iFree.symm.trans hzero
    exact ⟨free, second rfl⟩
  | spent _ _ nFree => exact absurd nFree hcount

/-- What a search does while the count is not zero: it counts one buffer less, moves `iFree` on, and
leaves the buffer it goes for full. -/
theorem Tracked.search_fields (h : w.Tracked) (hcount : w.store.container.nFree ≠ 0)
    (buffer : TDataBuffer) {w' : Watch}
    (hw' : w' = w.step (.writeBuffer buffer kDataId.toUInt32)) :
    w'.store.container.nFree = w.store.container.nFree - 1 ∧
      w'.store.container.iFree = succIndex w.store.container.iFree ∧
      ∀ i, w'.store.container.IsFree i ↔
        i ≠ w.store.container.lockIndex ∧ w.store.container.IsFree i := by
  obtain ⟨b, hmarked⟩ := exists_marked h hcount buffer
  have hcontainer : w'.store.container =
      w.store.container.takeFree.setBuffer w.store.container.lockIndex ⟨b, .stFull⟩ := by
    rw [hw']
    exact hmarked
  rw [hcontainer]
  exact ⟨rfl, rfl, fun i => isFree_setBuffer_full⟩

/-- Buffer 0 is taken only while buffer 1 is free, and buffer 1 only while buffer 0 is. -/
theorem Tracked.search_second (h : w.Tracked) (hcount : w.store.container.nFree ≠ 0) :
    ¬ (0 ≠ w.store.container.lockIndex ∧ w.store.container.IsFree 0) →
      1 ≠ w.store.container.lockIndex ∧ w.store.container.IsFree 1 := by
  have hindex := h.lockIndex_eq
  by_cases h₀ : w.store.container.IsFree 0
  · rw [if_pos h₀] at hindex
    intro hfull
    have hzero : w.store.container.iFree = 0 := by
      by_contra hne
      exact hfull ⟨fun heq => hne (hindex ▸ heq.symm), h₀⟩
    rw [hindex, hzero]
    exact ⟨one_ne_zero, (h.free_of_iFree hcount hzero).2⟩
  · rw [if_neg h₀] at hindex
    refine fun _ => ⟨fun heq => h₀ (h.free_of_iFree hcount ?_).1, h.second h₀⟩
    have hlt := h.index
    rw [hindex] at heq
    simp only [kMaxSize] at heq hlt
    omega

/-- **A right search** keeps the run on its track. -/
theorem Tracked.search (h : w.Tracked) (hok : Store.LockOk w.store.container)
    (buffer : TDataBuffer) : (w.step (.writeBuffer buffer kDataId.toUInt32)).Tracked := by
  have hcount := ((Store.lockOk_iff h.index h.firstFree_lt).1 hok).1
  have hindex := h.lockIndex_eq
  have hsucc := succIndex_eq h.index
  set w' := w.step (.writeBuffer buffer kDataId.toUInt32) with hw'
  have hsearches : w'.searches = w.searches + 1 := rfl
  have hreleased : w'.released = none := rfl
  obtain ⟨hnFree, hiFree, hfree⟩ := h.search_fields hcount buffer hw'
  refine ⟨by rw [hiFree]; exact succIndex_lt _, ?_, ?_⟩
  · rw [hfree, hfree]
    exact h.search_second hcount
  · cases h.phase with
    | early few nFree iFree unused =>
      rw [iFree] at hindex hsucc
      rcases Nat.lt_or_ge w.searches 30 with hlt | hge
      · refine .early (by omega) (by rw [hnFree, nFree]; omega) ?_ fun i hi hbehind => ?_
        · rw [hiFree, iFree, hsucc, hsearches]
          exact Nat.mod_eq_of_lt (by simp only [kMaxSize]; omega)
        · refine (hfree i).2 ⟨?_, unused i hi (.inl (by omega))⟩
          rw [hindex, Nat.mod_eq_of_lt (by simp only [kMaxSize]; omega)]
          split_ifs <;> omega
      · have hlast : w.searches = 30 := by omega
        refine .last (by omega) hreleased (by rw [hnFree, nFree, hlast]) ?_ fun hzero => ?_
        · rw [hiFree, iFree, hsucc, hlast]
          rfl
        · rw [if_pos ((hfree 0).1 hzero).2, hlast] at hindex
          exact (hfree 31).2 ⟨by rw [hindex]; decide, unused 31 (by decide) (.inl (by omega))⟩
    | last searches _ nFree _ _ =>
      exact .spent (by omega) hreleased (by rw [hnFree, nFree])
    | refilled _ _ many _ nFree _ _ _ =>
      exact .spent (by omega) hreleased (by rw [hnFree, nFree])
    | spent _ _ nFree => exact absurd nFree hcount

/-- A message keeps the run on its track. -/
theorem Tracked.message (h : w.Tracked) (msg : Mem) (src : UInt16) :
    (w.step (.message msg src)).Tracked := by
  cases hreleases : w.store.container.releases msg with
  | none =>
    obtain ⟨hn, hi, hfree⟩ := releases_none hreleases src
    refine h.congr hn hi hfree rfl ?_
    change (w.store.container.releases msg).or w.released = w.released
    rw [hreleases, Option.none_or]
  | some n =>
    obtain ⟨hlt, hfull, hn, hi, hfree⟩ := releases_some hreleases src
    set w' := w.step (.message msg src) with hstep
    have hreleased : w'.released = some n := by
      change (w.store.container.releases msg).or w.released = some n
      rw [hreleases, Option.some_or]
    have hsearches : w'.searches = w.searches := rfl
    have hfree' : ∀ i, w'.store.container.IsFree i ↔ i = n ∨ w.store.container.IsFree i := hfree
    have hiFree : w'.store.container.iFree =
        if w.store.container.nFree ≤ 1 then n else w.store.container.iFree := hi
    have hsecond : n = 0 → w'.store.container.IsFree 1 := by
      rintro rfl
      exact (hfree' 1).2 (.inr (h.second hfull))
    have hnFree : w.store.container.nFree ≤ kMaxSize →
        w'.store.container.nFree = max w.store.container.nFree 1 := hn
    refine ⟨?_, fun h₀ => ?_, ?_⟩
    · rw [hiFree]
      split_ifs
      · exact hlt
      · exact h.index
    · exact (hfree' 1).2 (.inr (h.second fun hzero => h₀ ((hfree' 0).2 (.inr hzero))))
    · -- with at most one buffer on the count, `iFree` is set to the buffer released
      have hrefilled : 31 ≤ w.searches → w.store.container.nFree ≤ 1 → w'.Phase := by
        intro hmany hone
        refine .refilled n hlt hmany hreleased ?_ ?_ ((hfree' n).2 (.inl rfl)) hsecond
        · rw [hnFree (by simp only [kMaxSize]; omega)]
          omega
        · rw [hiFree, if_pos hone]
      cases h.phase with
      | early few nFree iFree unused =>
        refine .early few ?_ ?_ fun i hi hbehind => (hfree' i).2 (.inr (unused i hi hbehind))
        · rw [hnFree (by simp only [kMaxSize]; omega), nFree, hsearches]
          omega
        · rw [hiFree, if_neg (by omega), iFree, hsearches]
      | last searches _ nFree _ _ => exact hrefilled (by omega) nFree.le
      | refilled _ _ many _ nFree _ _ _ => exact hrefilled many nFree.le
      | spent many _ nFree => exact hrefilled (by omega) (by omega)

/-- The beginning of a run, or what a reset leaves. -/
theorem tracked_of_free {w : Watch} (hn : w.store.container.nFree = kMaxSize)
    (hi : w.store.container.iFree = 0) (hfree : ∀ i, w.store.container.IsFree i)
    (hsearches : w.searches = 0) : w.Tracked where
  index := by rw [hi]; decide
  second _ := hfree 1
  phase := .early (by omega) (by rw [hn, hsearches]; rfl) (hi.trans hsearches.symm)
    fun i _ _ => hfree i

/-- **One operation**, with the search right if there is one, keeps the run on its track. -/
theorem Tracked.step (h : w.Tracked) {op : Op}
    (hok : Store.Locks op → Store.LockOk w.store.container) : (w.step op).Tracked := by
  cases op with
  | writeBuffer buffer dataId =>
    by_cases hid : dataId = kDataId.toUInt32
    · subst hid
      exact h.search (hok rfl) buffer
    · have hsame : w.step (.writeBuffer buffer dataId) = w := by
        rw [Watch.step, if_neg hid, Store.step_of_ne hid]
      rwa [hsame]
  | message msg src => exact h.message msg src
  | reset => exact tracked_of_free rfl rfl (fun _ => rfl) rfl

end Watch

/-! ## Runs -/

namespace Store

/-- **Stored blocks and the search for a free buffer.** Along a run from any initial memory, every
`lockFreeBuffer` returns a free buffer if there is one and fails only if there is none, and no
block that is stored and not acknowledged is ever cleared or overwritten, exactly when every search
is clear. -/
theorem storage_iff (memory : ℕ → TDataBuffer) (ops : List Op) :
    ((∀ m ∈ Run.steps step (init memory) ops, Locks m.2 → LockOk m.1.container) ∧
      ∀ pre, pre <+: ops → (Run.final step (init memory) pre).Intact) ↔
    ∀ m ∈ Run.steps Watch.step (Watch.init memory) ops, Locks m.2 → m.1.Clear := by
  have hstore : ∀ (w : Watch) (op : Op), (w.step op).store = w.store.step op := by
    intro w op
    cases op with
    | writeBuffer buffer dataId =>
      rw [Watch.step]
      split_ifs <;> rfl
    | message msg src => rfl
    | reset => rfl
  have hsteps : Run.steps step (init memory) ops =
      (Run.steps Watch.step (Watch.init memory) ops).map (Prod.map Watch.store id) :=
    Run.steps_map Watch.store hstore (Watch.init memory) ops
  have hinit : (Watch.init memory).Tracked := Watch.tracked_of_free rfl rfl (fun _ => rfl) rfl
  have hclear : (∀ m ∈ Run.steps Watch.step (Watch.init memory) ops,
        Locks m.2 → LockOk m.1.store.container) ↔
      ∀ m ∈ Run.steps Watch.step (Watch.init memory) ops, Locks m.2 → m.1.Clear :=
    Run.forall_steps_iff (Q := Watch.Tracked)
      (R := fun w op => Locks op → LockOk w.store.container)
      (A := fun w op => Locks op → w.Clear)
      (fun _ _ h => imp_congr_right fun _ => h.lockOk_iff)
      (fun _ _ h hop => h.step fun hlocks => h.lockOk_iff.2 (hop hlocks)) hinit ops
  rw [← hclear]
  constructor
  · rintro ⟨hok, -⟩ m hm
    exact hok (m.1.store, m.2) (by rw [hsteps]; exact List.mem_map_of_mem hm)
  · intro h
    have hok : ∀ m ∈ Run.steps step (init memory) ops, Locks m.2 → LockOk m.1.container := by
      rw [hsteps]
      intro m' hm'
      obtain ⟨m, hm, rfl⟩ := List.mem_map.1 hm'
      exact h m hm
    refine ⟨hok, ?_⟩
    rintro pre ⟨rest, rfl⟩
    rw [Run.steps_append, List.forall_mem_append] at hok
    exact intact_final memory hok.1

/-- Blocks 1 and 2 are stored and block 1 is acknowledged: the search for block 3 returns the
buffer of block 2, which is full. -/
theorem not_storage_acknowledge :
    ¬ ((∀ m ∈ Run.steps step blank [write 1, write 2, acknowledge 1, write 3],
        Locks m.2 → LockOk m.1.container) ∧
      ∀ pre, pre <+: [write 1, write 2, acknowledge 1, write 3] →
        (Run.final step blank pre).Intact) := by
  rintro ⟨hlock, -⟩
  have hmem := Run.mem_steps_append_cons step blank [write 1, write 2, acknowledge 1] (write 3) []
  have hok := (hlock _ hmem rfl).1 2 (by decide +kernel)
  revert hok
  decide +kernel

end Store

end KS3.Buffers
