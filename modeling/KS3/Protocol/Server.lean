import KS3.Buffers.Serving
import KS3.Protocol.ReadBlock
import KS3.Protocol.Replies

/-!
# What the upper level can ask for

The device as the upper level sees it: registers that can be read and written, blocks of registers,
and the blocks of measurements that are asked for and acknowledged. `serve` says what a command does
to the state and what is answered, without packets and links; `Serves` is a sequence of commands.

What the program does not determine is `Chance`: the clock, a field that is not initialized, and a
variable that is not set when a parameter cannot be read.

* `Parameters.write`: which registers can be written. Register 2 is guarded by register 14.
* `write_two_iff`: in every sequence of commands, a write of register 2 is taken exactly when the
  code for it was written to register 14 and since then neither register has been written.
-/

namespace KS3.Protocol

open DataIO Buffers

/-! ## Writing parameters -/

namespace Parameters

/-- `R14_MASK_WR_REG`. -/
def r14MaskWrReg : UInt32 := 0x10170000

/-- `data_buffers::handleParameters`, for the operation `kOpWrite`: whether the result is
`ResultOk`. -/
def handleParametersWrite (_n : UInt16) (_v : UInt32) : Bool := false

/-- `TDevice_Parameters::__write`. -/
def write (s : Parameters) (n : UInt16) (v : UInt32) : Bool × Parameters :=
  let rc := if 40 ≤ n ∧ n ≤ 41 then handleParametersWrite n v else false
  if n = 2 then
    if s.r14 = r14MaskWrReg ||| 2 then (true, { s with r14 := 0 }) else (false, s)
  else if n = 14 then (true, { s with r14 := v })
  else if n = 3 ∨ n = 4 ∨ n = 15 ∨ n = 19 ∨ n = 21 then (true, s)
  else (rc, s)

/-- Only register 14 changes, and only by a write of itself or of register 2. -/
theorem write_eq (s : Parameters) (n : UInt16) (v : UInt32) :
    s.write n v =
      (decide (n = 14 ∨ n = 3 ∨ n = 4 ∨ n = 15 ∨ n = 19 ∨ n = 21 ∨
          n = 2 ∧ s.r14 = r14MaskWrReg ||| 2),
        { s with r14 := if n = 14 then v
          else if n = 2 ∧ s.r14 = r14MaskWrReg ||| 2 then 0 else s.r14 }) := by
  by_cases h₂ : n = 2
  · subst h₂
    by_cases hcode : s.r14 = r14MaskWrReg ||| 2
    · simp [write, hcode]
    · simp [write, hcode]
  by_cases h₁₄ : n = 14
  · subst h₁₄
    rfl
  · by_cases hplain : n = 3 ∨ n = 4 ∨ n = 15 ∨ n = 19 ∨ n = 21
    · simp [write, h₂, h₁₄, hplain]
    · simp [write, h₂, h₁₄, hplain, handleParametersWrite]

end Parameters

/-! ## Commands -/

/-- A message of the upper level: a read or a write of a parameter; a `TMsgReadBlock` with no more
parameters than the reply has place for; a `MsgAppType`, with the packet number in it if it is an
acknowledge; or a value, which is not meant for this device. -/
inductive Command
  | query (q : Query)
  | readBlock (sequenceNumber : UInt8) (base : UInt16) (size reserved : UInt8)
    (hsize : size.toNat ≤ ReadBlock.dataLength)
  | app (sequenceNumber : UInt8) (type : UInt16) (data : List UInt8)
    (hlen : data.length < 0xFFFA) (hack : type = msgAppDataAcknowledge → 2 ≤ data.length)
  | value (sequenceNumber : UInt8) (n : UInt16) (v : UInt32) (result reserved : UInt16)

namespace Command

/-- The octets of a `MsgAppType`. -/
def appBytes (sequenceNumber : UInt8) (type : UInt16) (data : List UInt8) : List UInt8 :=
  [msgAppType, sequenceNumber] ++ wordBytes type ++ wordBytes (UInt16.ofNat data.length) ++ data

/-- The octets of a command. -/
def bytes : Command → List UInt8
  | .query q => q.bytes
  | .readBlock sequenceNumber base size reserved _ =>
    [msgReadBlock, sequenceNumber] ++ wordBytes base ++ [size, reserved]
  | .app sequenceNumber type data _ _ => appBytes sequenceNumber type data
  | .value sequenceNumber n v result reserved => valueMessage sequenceNumber n v result reserved

theorem messageSize_appBytes (sequenceNumber : UInt8) (type : UInt16) {data : List UInt8}
    (hlen : data.length < 0xFFFA) :
    messageSize (Mem.ofList (appBytes sequenceNumber type data)) =
      some (appBytes sequenceNumber type data).length := by
  have hsize : appDataSize (Mem.ofList (appBytes sequenceNumber type data)) = data.length := by
    change (ofBytes (loByte (UInt16.ofNat data.length)) (hiByte (UInt16.ofNat data.length))).toNat =
      data.length
    rw [ofBytes_lo_hi, UInt16.toNat_ofNat']
    omega
  have hbytes : (appBytes sequenceNumber type data).length = 6 + data.length := by
    simp [appBytes, wordBytes]
    omega
  have hid : Mem.ofList (appBytes sequenceNumber type data) 0 = msgAppType := rfl
  rw [messageSize, if_pos hid, hsize, hbytes, sizeofTMsgAppTypeHeader]
  congr 1
  omega

/-- The register a command writes. -/
def writes : Command → Option UInt16
  | .query (.write _ n _) => some n
  | _ => none

/-- Whether a command is answered, with one message. -/
def answered : Command → Bool
  | .query q => q.numbered
  | .readBlock .. => true
  | .app _ type _ _ _ => type = msgAppRequestData
  | .value .. => false

/-- The octets of the answer. -/
def replySize : Command → ℕ
  | .query q => if q.numbered then 12 else 0
  | .readBlock _ _ size _ _ => ReadBlock.sizeofHeader + 4 * size.toNat
  | .app _ type _ _ _ => if type = msgAppRequestData then sizeofTMsgAppTypeHeader else 0
  | .value .. => 0

/-- The packets that are sent off before they are full: one for a request for data. -/
def flushes : Command → ℕ
  | .app _ type _ _ _ => if type = msgAppRequestData then 1 else 0
  | _ => 0

/-- A command as a well-formed message. -/
def message (c : Command) : Message where
  bytes := c.bytes
  size_eq := by
    cases c with
    | query q => exact q.message.size_eq
    | readBlock => rfl
    | app sequenceNumber type data hlen _ => exact messageSize_appBytes sequenceNumber type hlen
    | value => rfl
  header_le h := by
    cases c with
    | query q => exact q.message.header_le h
    | readBlock => exact absurd (show msgReadBlock = msgAppType from h) (by decide)
    | app => simp [bytes, appBytes, wordBytes, sizeofTMsgAppTypeHeader]
    | value => exact absurd (show msgParameterValue = msgAppType from h) (by decide)

end Command

/-! ## The server -/

/-- The state the commands act on: the registers that change, the container of blocks, and the
object in which the reply to a `TMsgReadBlock` is put together. -/
structure ServerState where
  r14 : UInt32
  r15 : UInt32
  container : TDataBuffersContainer
  block : Mem

/-- What the program does not determine: the clock, what is in the variable for a parameter that
cannot be read, and what is in the field that is not initialized. -/
structure Chance where
  now : UInt32
  unread : UInt32
  reserved : UInt16

namespace ServerState

variable (debug : Bool)

/-- What the parameters are read from. -/
def parameters (s : ServerState) (now : UInt32) : Parameters where
  debug := debug
  fullBuffers := UInt16.ofNat s.container.nFull
  freeBuffers := UInt16.ofNat s.container.nFree
  r14 := s.r14
  r15 := s.r15
  now := now

/-- The values of a block of parameters: of those that cannot be read, what is left in the
object. -/
def blockBytes (s : ServerState) (now : UInt32) (base : UInt16) (size : UInt8) : List UInt8 :=
  (List.range size.toNat).flatMap fun i =>
    ((s.parameters debug now).read (base + UInt16.ofNat i)).elim (ReadBlock.slot s.block i)
      longBytes

/-- The notice that there is no data. -/
def absence (sequenceNumber : UInt8) : List UInt8 :=
  Command.appBytes sequenceNumber msgAppDataAbsence []

/-- **What a command does**, and what is answered. A request for data is answered with the notice
that there is none. -/
def serve (x : Chance) (s : ServerState) : Command → ServerState × List (List UInt8)
  | .query (.write sequenceNumber n v) =>
    let (ok, p) := (s.parameters debug x.now).write n v
    ({ s with r14 := p.r14 },
      if sequenceNumber ≠ 0xFF then
        [valueMessage sequenceNumber n v (resultCode (if ok then 0 else -1)) x.reserved]
      else [])
  | .query (.read sequenceNumber n) =>
    (s, [match (s.parameters debug x.now).read n with
      | some v => valueMessage sequenceNumber n v (resultCode 0) x.reserved
      | none => valueMessage sequenceNumber n x.unread (resultCode (-1)) x.reserved])
  | .readBlock sequenceNumber base size reserved _ =>
    ({ s with block := (ReadBlock.fillBlock (s.parameters debug x.now)
        (Mem.ofList ([msgReadBlock, sequenceNumber] ++ wordBytes base ++ [size, reserved]))
        s.block).block },
      [ReadBlock.header sequenceNumber base size.toNat ++ s.blockBytes debug x.now base size])
  | .app sequenceNumber type data _ _ =>
    if type = msgAppRequestData then (s, [absence sequenceNumber])
    else if type = msgAppDataAcknowledge then
      ({ s with container :=
        s.container.handleMsgDataAcknowledge ((Mem.ofList data).word 0) }, [])
    else (s, [])
  | .value .. => (s, [])

/-- A sequence of commands is served, with the given answers. -/
inductive Serves : ServerState → List Command → ServerState → List (List UInt8) → Prop
  | nil (s) : Serves s [] s []
  | snoc {s s' cs replies} (h : Serves s cs s' replies) (c : Command) (x : Chance) :
    Serves s (cs ++ [c]) (s'.serve debug x c).1 (replies ++ (s'.serve debug x c).2)

/-- The last command of a sequence. -/
theorem Serves.snoc_inv {s s' : ServerState} {cs : List Command} {c : Command}
    {replies : List (List UInt8)} (h : Serves debug s (cs ++ [c]) s' replies) :
    ∃ s₁ answered x, Serves debug s cs s₁ answered ∧ s' = (s₁.serve debug x c).1 ∧
      replies = answered ++ (s₁.serve debug x c).2 := by
  generalize hcs : cs ++ [c] = cs' at h
  cases h with
  | nil => exact absurd hcs (by simp)
  | @snoc s₁ cs₁ answered hserves c₁ x =>
    obtain ⟨rfl, hlast⟩ := List.append_inj' hcs rfl
    obtain rfl := List.singleton_inj.1 hlast
    exact ⟨s₁, answered, x, hserves, rfl, rfl⟩

/-- There is one answer to each command that is answered. -/
theorem length_serve (x : Chance) (s : ServerState) (c : Command) :
    (s.serve debug x c).2.length = if c.answered then 1 else 0 := by
  cases c with
  | query q =>
    cases q with
    | write sequenceNumber n v =>
      by_cases hanswer : sequenceNumber = 0xFF
      · simp [serve, Command.answered, Query.numbered, hanswer]
      · simp [serve, Command.answered, Query.numbered, hanswer]
    | read => rfl
  | readBlock => rfl
  | app sequenceNumber type data =>
    simp only [serve, Command.answered, decide_eq_true_eq]
    split_ifs <;> rfl
  | value => rfl

theorem length_blockBytes (s : ServerState) (now : UInt32) (base : UInt16) (size : UInt8) :
    (s.blockBytes debug now base size).length = 4 * size.toNat := by
  have hslot : ∀ i ∈ List.range size.toNat, (((s.parameters debug now).read
      (base + UInt16.ofNat i)).elim (ReadBlock.slot s.block i) longBytes).length = 4 := by
    intro i _
    cases (s.parameters debug now).read (base + UInt16.ofNat i) with
    | none => exact Mem.length_read ..
    | some v => rfl
  rw [blockBytes, List.length_flatMap, List.map_congr_left hslot, List.map_const',
    List.sum_replicate, List.length_range, smul_eq_mul, Nat.mul_comm]

/-- The octets of the answers. -/
theorem length_flatten_serve (x : Chance) (s : ServerState) (c : Command) :
    (s.serve debug x c).2.flatten.length = c.replySize := by
  cases c with
  | query q =>
    cases q with
    | write sequenceNumber n v =>
      by_cases hanswer : sequenceNumber = 0xFF
      · simp [serve, Command.replySize, Query.numbered, hanswer]
      · simp only [serve, Command.replySize, Query.numbered, hanswer, ne_eq, not_false_eq_true,
          if_true, decide_true]
        rfl
    | read sequenceNumber n =>
      simp only [serve, List.flatten_singleton]
      cases (s.parameters debug x.now).read n <;> rfl
  | readBlock sequenceNumber base size reserved hsize =>
    rw [serve, List.flatten_singleton, List.length_append, length_blockBytes]
    rfl
  | app sequenceNumber type data =>
    simp only [serve, Command.replySize]
    split_ifs <;> rfl
  | value => rfl

theorem ne_nil_of_mem_serve {x : Chance} {s : ServerState} {c : Command} {reply : List UInt8}
    (h : reply ∈ (s.serve debug x c).2) : reply ≠ [] := by
  cases c with
  | query q =>
    cases q with
    | write sequenceNumber n v =>
      by_cases hanswer : sequenceNumber = 0xFF
      · simp [serve, hanswer] at h
      · simp only [serve, ne_eq, hanswer, not_false_eq_true, if_true, List.mem_singleton] at h
        rw [h]
        exact List.cons_ne_nil _ _
    | read sequenceNumber n =>
      simp only [serve, List.mem_singleton] at h
      rw [h]
      cases (s.parameters debug x.now).read n <;> exact List.cons_ne_nil _ _
  | readBlock =>
    rw [List.mem_singleton.1 h]
    exact List.cons_ne_nil _ _
  | app sequenceNumber type data =>
    simp only [serve] at h
    split_ifs at h
    · rw [List.mem_singleton.1 h]
      exact List.cons_ne_nil _ _
    · cases h
    · cases h
  | value => cases h

/-- No answer is empty. -/
theorem Serves.ne_nil {s s' : ServerState} {cs : List Command} {replies : List (List UInt8)}
    (h : Serves debug s cs s' replies) : ∀ reply ∈ replies, reply ≠ [] := by
  induction h with
  | nil => simp
  | snoc _ c x ih =>
    intro reply hreply
    rcases List.mem_append.1 hreply with hreply | hreply
    · exact ih reply hreply
    · exact ne_nil_of_mem_serve debug hreply

theorem Serves.length_flatten {s s' : ServerState} {cs : List Command}
    {replies : List (List UInt8)} (h : Serves debug s cs s' replies) :
    replies.flatten.length = (cs.map Command.replySize).sum := by
  induction h with
  | nil => rfl
  | snoc _ c x ih =>
    rw [List.flatten_append, List.length_append, ih, length_flatten_serve, List.map_append,
      List.sum_append, List.map_singleton, List.sum_singleton]

theorem Serves.length_replies {s s' : ServerState} {cs : List Command}
    {replies : List (List UInt8)} (h : Serves debug s cs s' replies) :
    replies.length = cs.countP Command.answered := by
  induction h with
  | nil => rfl
  | snoc _ c x ih =>
    rw [List.length_append, List.countP_append, ih, length_serve, List.countP_singleton]

/-! ## The guard of register 2 -/

section Guard

variable {debug} {s s' : ServerState} {cs : List Command} {replies : List (List UInt8)}

/-- The code for register 2 has been written to register 14, and since then neither of the two has
been written. -/
def Unlocked (cs : List Command) : Prop :=
  ∃ before sequenceNumber after, cs = before ++
      .query (.write sequenceNumber 14 (Parameters.r14MaskWrReg ||| 2)) :: after ∧
    ∀ c ∈ after, c.writes ≠ some 14 ∧ c.writes ≠ some 2

/-- A command that does not write one of the two registers changes nothing. -/
theorem unlocked_snoc_of_ne {c : Command} (h₁₄ : c.writes ≠ some 14) (h₂ : c.writes ≠ some 2) :
    Unlocked (cs ++ [c]) ↔ Unlocked cs := by
  constructor
  · rintro ⟨before, sequenceNumber, after, heq, hafter⟩
    rcases List.eq_nil_or_concat after with rfl | ⟨after, last, rfl⟩
    · obtain ⟨-, hlast⟩ := List.append_inj' heq rfl
      obtain rfl := List.singleton_inj.1 hlast
      exact absurd rfl h₁₄
    · rw [List.concat_eq_append, ← List.cons_append, ← List.append_assoc] at heq
      obtain ⟨rfl, -⟩ := List.append_inj' heq rfl
      refine ⟨before, sequenceNumber, after, rfl, fun c' hc' => hafter c' ?_⟩
      rw [List.concat_eq_append]
      exact List.mem_append_left _ hc'
  · rintro ⟨before, sequenceNumber, after, rfl, hafter⟩
    refine ⟨before, sequenceNumber, after ++ [c], by simp, fun c' hc' => ?_⟩
    rcases List.mem_append.1 hc' with hc' | hc'
    · exact hafter c' hc'
    · rw [List.mem_singleton.1 hc']
      exact ⟨h₁₄, h₂⟩

/-- A write of one of the two registers unlocks only if it is the one of the code. -/
theorem unlocked_snoc_of_eq {c : Command} (h : c.writes = some 14 ∨ c.writes = some 2) :
    Unlocked (cs ++ [c]) ↔ ∃ sequenceNumber,
      c = .query (.write sequenceNumber 14 (Parameters.r14MaskWrReg ||| 2)) := by
  constructor
  · rintro ⟨before, sequenceNumber, after, heq, hafter⟩
    rcases List.eq_nil_or_concat after with rfl | ⟨after, last, rfl⟩
    · obtain ⟨-, hlast⟩ := List.append_inj' heq rfl
      exact ⟨sequenceNumber, List.singleton_inj.1 hlast⟩
    · rw [List.concat_eq_append, ← List.cons_append, ← List.append_assoc] at heq
      obtain ⟨-, hlast⟩ := List.append_inj' heq rfl
      obtain rfl := List.singleton_inj.1 hlast
      have hc := hafter c (by simp)
      exact absurd h (not_or.2 hc)
  · rintro ⟨sequenceNumber, rfl⟩
    exact ⟨cs, sequenceNumber, [], rfl, by simp⟩

/-- What a command does to register 14. -/
theorem r14_serve (x : Chance) (s : ServerState) (c : Command) :
    (s.serve debug x c).1.r14 =
      match c with
      | .query (.write _ n v) => ((s.parameters debug x.now).write n v).2.r14
      | _ => s.r14 := by
  cases c with
  | query q => cases q <;> rfl
  | readBlock => rfl
  | value => rfl
  | app sequenceNumber type data =>
    simp only [serve]
    split_ifs <;> rfl

theorem not_unlocked_nil : ¬ Unlocked [] := by
  rintro ⟨before, sequenceNumber, after, heq, -⟩
  exact absurd heq.symm (by simp)

/-- **Register 14 holds the code** exactly when it has been written there and not been used or
overwritten since. -/
theorem r14_eq_iff {done : List Command} (h : Serves debug s cs s' replies)
    (h₀ : s.r14 = Parameters.r14MaskWrReg ||| 2 ↔ Unlocked done) :
    s'.r14 = Parameters.r14MaskWrReg ||| 2 ↔ Unlocked (done ++ cs) := by
  induction h with
  | nil => rwa [List.append_nil]
  | @snoc s' cs replies _ c x ih =>
    rw [← List.append_assoc]
    rw [r14_serve]
    rcases hc : c.writes with _ | n
    · rw [unlocked_snoc_of_ne (by simp [hc]) (by simp [hc]), ← ih]
      cases c with
      | query q =>
        cases q with
        | write => cases hc
        | read => rfl
      | _ => rfl
    · obtain ⟨sequenceNumber, v, rfl⟩ : ∃ sequenceNumber v,
          c = .query (.write sequenceNumber n v) := by
        cases c with
        | query q =>
          cases q with
          | write sequenceNumber n' v =>
            obtain rfl := Option.some.inj hc
            exact ⟨sequenceNumber, v, rfl⟩
          | read => cases hc
        | _ => cases hc
      simp only [Parameters.write_eq]
      by_cases h₁₄ : n = 14
      · subst h₁₄
        rw [unlocked_snoc_of_eq (.inl rfl)]
        simp
      · by_cases h₂ : n = 2
        · subst h₂
          rw [unlocked_snoc_of_eq (.inr rfl)]
          refine iff_of_false ?_ ?_
          · simp only [if_neg h₁₄, true_and]
            split_ifs with hcode
            · decide
            · exact hcode
          · rintro ⟨_, heq⟩
            cases heq
        · rw [unlocked_snoc_of_ne (by simp [Command.writes, h₁₄]) (by simp [Command.writes, h₂]),
            ← ih]
          simp [h₁₄, h₂, parameters]

/-- A sequence of commands in two parts. -/
theorem Serves.append_inv {cs' : List Command} (h : Serves debug s (cs ++ cs') s' replies) :
    ∃ s₁ first rest, Serves debug s cs s₁ first ∧ Serves debug s₁ cs' s' rest ∧
      replies = first ++ rest := by
  induction cs' using List.reverseRecOn generalizing s' replies with
  | nil =>
    rw [List.append_nil] at h
    exact ⟨s', replies, [], h, .nil s', (List.append_nil _).symm⟩
  | append_singleton cs' c ih =>
    rw [← List.append_assoc] at h
    obtain ⟨s₂, answered, x, hserves, rfl, rfl⟩ := h.snoc_inv
    obtain ⟨s₁, first, rest, hfirst, hrest, rfl⟩ := ih hserves
    exact ⟨s₁, first, rest ++ (s₂.serve debug x c).2, hfirst, hrest.snoc c x,
      List.append_assoc ..⟩

/-- **The guard of register 2**: in any sequence of commands, a write of register 2 that asks for an
answer is answered with `ResultOk` exactly when the code for it has been written to register 14 and
neither of the two registers has been written since, and with `ResultBadParameter` otherwise. -/
theorem write_two_iff {done cs' : List Command}
    (h₀ : s.r14 = Parameters.r14MaskWrReg ||| 2 ↔ Unlocked done) {sequenceNumber : UInt8}
    (hanswer : sequenceNumber ≠ 0xFF) {v : UInt32}
    (h : Serves debug s (cs ++ .query (.write sequenceNumber 2 v) :: cs') s' replies) :
    ∃ first result reserved rest,
      replies = first ++ valueMessage sequenceNumber 2 v result reserved :: rest ∧
      first.length = cs.countP Command.answered ∧ (result = 0 ∨ result = 0xFFFF) ∧
      (result = 0 ↔ Unlocked (done ++ cs)) := by
  rw [List.append_cons] at h
  obtain ⟨s₂, first, rest, hfirst, -, rfl⟩ := h.append_inv
  obtain ⟨s₁, answered, x, hserves, -, rfl⟩ := hfirst.snoc_inv
  rw [← r14_eq_iff hserves h₀]
  simp only [serve, Parameters.write_eq, hanswer, ne_eq, not_false_eq_true, if_true]
  refine ⟨answered, _, x.reserved, rest, by rw [List.append_assoc, List.singleton_append],
    hserves.length_replies, ?_⟩
  by_cases hcode : s₁.r14 = Parameters.r14MaskWrReg ||| 2
  · simp [parameters, hcode, resultCode]
  · simp [parameters, hcode, resultCode]

end Guard

end ServerState

end KS3.Protocol
