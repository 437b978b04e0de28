import KS3.Comm.ConstrInput

/-!
# The lookup of a command

`cparse` of `constrinput.c` copies the first word of a line into the array `sc`, then the commands
of its list one after another into the array `cc`, and returns the index of the first that is equal
to the word. A string is the list of its characters up to the zero; reading at its end gives zero.
The two arrays are local and not initialised: they have any contents at first, and the indices that
are stored to are kept beside them.

* `cparse_joined`: for a list of commands joined with backslashes `cparse` returns, and what it
  returns is `lookup`; all its stores are inside the two arrays.
-/

namespace KS3.Comm

/-! ## The code -/

/-- `MAXCMD_SZ`. -/
def maxcmdSz : ℕ := 160

/-- The space. -/
def chSpace : UInt8 := 0x20

/-- The horizontal tab. -/
def chTab : UInt8 := 0x09

/-- The sign `=`. -/
def chEquals : UInt8 := 0x3D

/-- The backslash. -/
def chBackslash : UInt8 := 0x5C

/-- A local array of `MAXCMD_SZ + 1` characters, with the indices that have been stored to. -/
structure Scratch where
  mem : Mem
  stores : List ℕ

namespace Scratch

/-- A store to the array. -/
def set (a : Scratch) (i : ℕ) (b : UInt8) : Scratch := ⟨a.mem.store i b, i :: a.stores⟩

/-- The characters of the array. -/
def chars (a : Scratch) : List UInt8 := a.mem.read 0 (maxcmdSz + 1)

/-- All stores have been inside the array. -/
def Inside (a : Scratch) : Prop := ∀ i ∈ a.stores, i < maxcmdSz + 1

end Scratch

/-- `cstrncmp`. -/
def cstrncmp : List UInt8 → List UInt8 → Bool
  | c :: s1, d :: s2 =>
    if c ≠ 0 ∧ d ≠ 0 then if c ≠ d then false else cstrncmp s1 s2 else decide (c = 0 ∧ d = 0)
  | s1, s2 => decide (s1.headD 0 = 0 ∧ s2.headD 0 = 0)

/-- The first loop of `cparse`: `s` behind the leading blanks and tabs. -/
def skipBlanks : List UInt8 → UInt8 → List UInt8
  | [], _ => []
  | c :: s, i =>
    if c ≠ 0 ∧ (c = chSpace ∨ c = chTab) ∧ i.toNat < maxcmdSz then skipBlanks s (i + 1) else c :: s

/-- The second loop: the first word of `s` is copied to `sc`. -/
def copyWord : List UInt8 → UInt8 → Scratch → Scratch
  | [], i, sc => sc.set i.toNat 0
  | c :: s, i, sc =>
    if c ≠ 0 ∧ c ≠ chSpace ∧ c ≠ chEquals ∧ i.toNat < maxcmdSz then
      if c ≠ chSpace then copyWord s (i + 1) (sc.set i.toNat c) else copyWord s i sc
    else sc.set i.toNat 0

/-- The array `cc` filled with blanks. -/
def fillBlanks (cc : Scratch) : Scratch :=
  ((List.range maxcmdSz).foldl (fun cc i => cc.set i chSpace) cc).set maxcmdSz 0

/-- `cl` behind the leading blanks and backslashes. -/
def skipSeparators (cl : List UInt8) : List UInt8 :=
  cl.dropWhile fun c => decide (c ≠ 0 ∧ (c = chSpace ∨ c = chBackslash))

/-- The next command of `cl` is copied to `cc`, up to the place where `cc` ends. -/
def copyCommand : List UInt8 → ℕ → Scratch → List UInt8 × Scratch
  | [], ccp, cc => ([], cc.set ccp 0)
  | c :: cl, ccp, cc =>
    if c ≠ 0 ∧ c ≠ chBackslash ∧ cc.mem ccp ≠ 0 then copyCommand cl (ccp + 1) (cc.set ccp c)
    else (c :: cl, cc.set ccp 0)

/-- The loop over the commands: nothing if `fuel` rounds are not enough. -/
def searchCommands (sc : Scratch) : ℕ → List UInt8 → UInt8 → Scratch → Option (ℤ × Scratch)
  | 0, _, _, _ => none
  | fuel + 1, cl, ccnt, cc =>
    let cc := fillBlanks cc
    let cl := skipSeparators cl
    if cl.headD 0 = 0 then some (-1, cc)
    else
      let next := copyCommand cl 0 cc
      if cstrncmp sc.chars next.2.chars then some (ccnt.toNat, next.2)
      else searchCommands sc fuel next.1 (ccnt + 1) next.2

/-- What a call of `cparse` leaves. -/
structure Parsed where
  result : ℤ
  console : Console
  cc : Scratch
  sc : Scratch

/-- `cparse` with the line found. -/
def parseLine (c : Console) (cl s : List UInt8) (cc sc : Scratch) : Option Parsed :=
  let s := skipBlanks s 0
  if s.headD 0 = 0 then some ⟨-3, c, cc, sc⟩
  else
    let sc := copyWord s 0 sc
    (searchCommands sc (cl.length + 1) cl 0 cc).map fun r => ⟨r.1, c, r.2, sc⟩

/-- `cparse`, with the contents its local arrays happen to have; the line is in `cstr` when the
pointer `s` is null. -/
def cparse (c : Console) (cl : List UInt8) (s : Option (List UInt8)) (cc sc : Mem) :
    Option Parsed :=
  if s.isNone ∧ c.cbcnt &&& 0x80 = 0 then some ⟨-2, c, ⟨cc, []⟩, ⟨sc, []⟩⟩
  else if s.isNone then
    parseLine { c with cbcnt := 0 } cl (cString c.cstr (cstrSz + 1)) ⟨cc, []⟩ ⟨sc, []⟩
  else parseLine c cl (s.getD []) ⟨cc, []⟩ ⟨sc, []⟩

/-! ## What is to be found -/

/-- Blanks and tabs. -/
def Blank (c : UInt8) : Prop := c = chSpace ∨ c = chTab

instance (c : UInt8) : Decidable (Blank c) := inferInstanceAs (Decidable (_ ∨ _))

/-- The first word of a line: what stands behind the leading blanks up to a space, the sign `=` or
the end. -/
def firstWord (line : List UInt8) : List UInt8 :=
  (line.dropWhile (Blank ·)).takeWhile fun c => decide (c ≠ chSpace ∧ c ≠ chEquals)

/-- What is to be returned: `-3` for a line of blanks, else the smallest index of a command equal to
the first word, and `-1` if there is none. -/
def lookup (cmds : List (List UInt8)) (line : List UInt8) : ℤ :=
  if ∀ c ∈ line, Blank c then -3
  else (cmds.idxOf? (firstWord line)).elim (-1) Int.ofNat

/-- A command that can stand in a list. -/
structure Command (cmd : List UInt8) : Prop where
  nonempty : cmd ≠ []
  short : cmd.length < maxcmdSz
  chars : ∀ c ∈ cmd, c ≠ 0 ∧ c ≠ chSpace ∧ c ≠ chEquals ∧ c ≠ chBackslash

/-- The list of commands as a string. -/
def joined (cmds : List (List UInt8)) : List UInt8 := [chBackslash].intercalate cmds

/-! ## Strings -/

/-- `cstrncmp` compares the strings up to their zeros. -/
theorem cstrncmp_iff (s1 s2 : List UInt8) :
    cstrncmp s1 s2 = true ↔ s1.takeWhile (· ≠ 0) = s2.takeWhile (· ≠ 0) := by
  induction s1 generalizing s2 with
  | nil =>
    rcases s2 with _ | ⟨d, s2⟩
    · simp [cstrncmp]
    · by_cases hd : d = 0 <;> simp [cstrncmp, hd]
  | cons c s1 ih =>
    rcases s2 with _ | ⟨d, s2⟩
    · by_cases hc : c = 0 <;> simp [cstrncmp, hc]
    · by_cases hc : c = 0
      · by_cases hd : d = 0 <;> simp [cstrncmp, hc, hd]
      · by_cases hd : d = 0
        · simp [cstrncmp, hc, hd]
        · have htake : ∀ (b : UInt8) (s : List UInt8), b ≠ 0 →
              (b :: s).takeWhile (· ≠ 0) = b :: s.takeWhile (· ≠ 0) := by
            intro b s hb
            simp [hb]
          rw [cstrncmp, if_pos ⟨hc, hd⟩, htake c s1 hc, htake d s2 hd, List.cons.injEq, ← ih]
          by_cases hcd : c = d <;> simp [hcd]

/-- The arrays of two strings are compared as the strings. -/
theorem cstrncmp_chars (a a' : Scratch) :
    cstrncmp a.chars a'.chars = true ↔
      cString a.mem (maxcmdSz + 1) = cString a'.mem (maxcmdSz + 1) := cstrncmp_iff _ _

theorem Scratch.Inside.set {a : Scratch} (h : a.Inside) {i : ℕ} (hi : i ≤ maxcmdSz) (b : UInt8) :
    (a.set i b).Inside := List.forall_mem_cons.2 ⟨Nat.lt_succ_of_le hi, h⟩

/-- A string written to an array, with its zero. -/
structure Copied (a a' : Scratch) (i : ℕ) (text : List UInt8) : Prop where
  mem : a'.mem = (a.mem.write i text).store (i + text.length) 0
  inside : a.Inside → a'.Inside

theorem Copied.nil (a : Scratch) {i : ℕ} (hi : i ≤ maxcmdSz) : Copied a (a.set i 0) i [] where
  mem := by rw [Mem.write_nil]; rfl
  inside := fun h => h.set hi 0

theorem Copied.cons {a a' : Scratch} {i : ℕ} {c : UInt8} {text : List UInt8} (hi : i ≤ maxcmdSz)
    (h : Copied (a.set i c) a' (i + 1) text) : Copied a a' i (c :: text) where
  mem := by
    have hset : (a.set i c).mem = a.mem.write i [c] := Mem.store_eq_write _ i c
    rw [h.mem, List.length_cons, ← List.singleton_append, ← Mem.write_append, hset,
      Nat.add_assoc, Nat.add_comm 1, List.length_singleton]
  inside := fun ha => h.inside (ha.set hi c)

/-- The string that an array then holds. -/
theorem Copied.cString {a a' : Scratch} {text : List UInt8} (h : Copied a a' 0 text)
    (hzero : 0 ∉ text) (hlen : text.length ≤ maxcmdSz) :
    Comm.cString a'.mem (maxcmdSz + 1) = text := by
  rw [h.mem, Nat.zero_add]
  exact cString_store (Mem.read_write _ 0 text) hzero (Nat.lt_succ_of_le hlen)

/-! ## The first word -/

theorem toNat_add_one_of_lt {i : UInt8} {n : ℕ} (h : i.toNat < n) (hn : n < 256) :
    (i + 1).toNat = i.toNat + 1 := by
  rw [UInt8.toNat_add]
  exact Nat.mod_eq_of_lt (by change i.toNat + 1 < 256; omega)

/-- The counter `i` does not wrap below the length of a command. -/
theorem toNat_succ_of_lt {i : UInt8} (h : i.toNat < maxcmdSz) : (i + 1).toNat = i.toNat + 1 :=
  toNat_add_one_of_lt h (by decide)

/-- The first loop skips all leading blanks when there are no more than it can count. -/
theorem skipBlanks_eq {line : List UInt8} {i : UInt8}
    (h : i.toNat + (line.takeWhile (Blank ·)).length ≤ maxcmdSz) :
    skipBlanks line i = line.dropWhile (Blank ·) := by
  induction line generalizing i with
  | nil => rfl
  | cons c line ih =>
    by_cases hc : Blank c
    · rw [List.takeWhile_cons_of_pos (by simpa using hc), List.length_cons] at h
      have hi : i.toNat < maxcmdSz := by omega
      have hzero : c ≠ 0 := by
        rintro rfl
        exact absurd hc (by decide)
      rw [skipBlanks, if_pos ⟨hzero, hc, hi⟩, List.dropWhile_cons_of_pos (by simpa using hc)]
      exact ih (by rw [toNat_succ_of_lt hi]; omega)
    · rw [skipBlanks, if_neg fun h => hc h.2.1, List.dropWhile_cons_of_neg (by simpa using hc)]

/-- The second loop copies the first word, or as much of it as the array takes. -/
theorem copied_copyWord {s : List UInt8} (hzero : 0 ∉ s) {i : UInt8} (hi : i.toNat ≤ maxcmdSz)
    (sc : Scratch) :
    Copied sc (copyWord s i sc) i.toNat
      ((s.takeWhile fun c => decide (c ≠ chSpace ∧ c ≠ chEquals)).take (maxcmdSz - i.toNat)) := by
  induction s generalizing i sc with
  | nil =>
    rw [List.takeWhile_nil, List.take_nil]
    exact Copied.nil sc hi
  | cons c s ih =>
    rw [List.mem_cons, not_or] at hzero
    by_cases hword : c ≠ chSpace ∧ c ≠ chEquals
    · rw [List.takeWhile_cons_of_pos (by simpa using hword)]
      rcases Nat.lt_or_eq_of_le hi with hlt | heq
      · have hnext := ih hzero.2 (by rw [toNat_succ_of_lt hlt]; omega) (sc.set i.toNat c)
        rw [toNat_succ_of_lt hlt] at hnext
        rw [copyWord, if_pos ⟨Ne.symm hzero.1, hword.1, hword.2, hlt⟩, if_pos hword.1,
          show maxcmdSz - i.toNat = maxcmdSz - (i.toNat + 1) + 1 by omega, List.take_succ_cons]
        exact hnext.cons hi
      · rw [copyWord, if_neg fun h => absurd h.2.2.2 (by omega), heq, Nat.sub_self, List.take_zero,
          ← heq]
        exact Copied.nil sc hi
    · rw [List.takeWhile_cons_of_neg (by simpa using hword), List.take_nil, copyWord,
        if_neg fun h => hword ⟨h.2.1, h.2.2.1⟩]
      exact Copied.nil sc hi

/-! ## The commands -/

/-- The array is full of blanks. -/
theorem fillBlanks_mem (cc : Scratch) {k : ℕ} (hk : k < maxcmdSz) :
    (fillBlanks cc).mem k = chSpace := by
  have hfill : ∀ n, ∀ k < n,
      ((List.range n).foldl (fun cc i => cc.set i chSpace) cc).mem k = chSpace := by
    intro n
    induction n with
    | zero => exact fun k hk => absurd hk (Nat.not_lt_zero k)
    | succ n ih =>
      intro k hk
      rw [List.range_succ, List.foldl_append]
      rcases Nat.lt_succ_iff_lt_or_eq.1 hk with hlt | rfl
      · exact (Mem.store_of_ne _ hlt.ne _).trans (ih k hlt)
      · exact Mem.store_self _ _ _
  exact (Mem.store_of_ne _ hk.ne _).trans (hfill _ k hk)

theorem fillBlanks_inside {cc : Scratch} (h : cc.Inside) : (fillBlanks cc).Inside := by
  have hfill : ∀ n ≤ maxcmdSz,
      ((List.range n).foldl (fun cc i => cc.set i chSpace) cc).Inside := by
    intro n
    induction n with
    | zero => exact fun _ => h
    | succ n ih =>
      intro hn
      rw [List.range_succ, List.foldl_append]
      exact (ih (by omega)).set (by omega) _
  exact (hfill _ le_rfl).set le_rfl 0

/-- A command is copied as a whole when `cc` has no zero where it goes. -/
theorem copied_copyCommand {cmd tail : List UInt8} {i : ℕ} (cc : Scratch)
    (hcmd : ∀ c ∈ cmd, c ≠ 0 ∧ c ≠ chBackslash) (htail : ∀ c ∈ tail.head?, c = chBackslash)
    (hblank : ∀ k < cmd.length, cc.mem (i + k) ≠ 0) (hlen : i + cmd.length ≤ maxcmdSz) :
    ∃ cc', copyCommand (cmd ++ tail) i cc = (tail, cc') ∧ Copied cc cc' i cmd := by
  induction cmd generalizing i cc with
  | nil =>
    refine ⟨cc.set i 0, ?_, Copied.nil cc hlen⟩
    rcases tail with _ | ⟨c, tail⟩
    · rfl
    · rw [List.nil_append, copyCommand, if_neg fun h => h.2.1 (htail c rfl)]
  | cons c cmd ih =>
    rw [List.length_cons] at hlen
    obtain ⟨hc, hcmd⟩ := List.forall_mem_cons.1 hcmd
    have hnext : ∀ k < cmd.length, (cc.set i c).mem (i + 1 + k) ≠ 0 := by
      intro k hk
      have hkeep : (cc.set i c).mem (i + 1 + k) = cc.mem (i + 1 + k) :=
        Mem.store_of_ne _ (by omega) _
      rw [hkeep, Nat.add_assoc, Nat.add_comm 1]
      exact hblank (k + 1) (by rw [List.length_cons]; omega)
    obtain ⟨cc', hcopy, hcopied⟩ := ih (cc.set i c) hcmd hnext (by omega)
    refine ⟨cc', ?_, hcopied.cons (by omega)⟩
    rw [List.cons_append, copyCommand,
      if_pos ⟨hc.1, hc.2, hblank 0 (by rw [List.length_cons]; omega)⟩, hcopy]

/-- A command starts with no separator. -/
theorem Command.skipSeparators_append {cmd : List UInt8} (h : Command cmd) (tail : List UInt8) :
    skipSeparators (cmd ++ tail) = cmd ++ tail := by
  obtain ⟨c, cmd, rfl⟩ := List.exists_cons_of_ne_nil h.nonempty
  obtain ⟨-, hspace, -, hbackslash⟩ := h.chars c List.mem_cons_self
  rw [List.cons_append, skipSeparators, List.dropWhile_cons_of_neg]
  simpa using fun _ => ⟨hspace, hbackslash⟩

/-- A list of commands is its first one and, if there are others, a backslash and their list. -/
theorem joined_cons (cmd : List UInt8) (cmds : List (List UInt8)) :
    ∃ tail, joined (cmd :: cmds) = cmd ++ tail ∧
      (tail = [] ∧ cmds = [] ∨ tail = chBackslash :: joined cmds) := by
  rcases cmds with _ | ⟨next, cmds⟩
  · exact ⟨[], by simp [joined], Or.inl ⟨rfl, rfl⟩⟩
  · refine ⟨chBackslash :: joined (next :: cmds), ?_, Or.inr rfl⟩
    rw [joined, List.intercalate_cons_cons, List.append_assoc, List.singleton_append, joined]

/-- A list of commands starts with no separator. -/
theorem skipSeparators_joined {cmds : List (List UInt8)} (h : ∀ c ∈ cmds, Command c) :
    skipSeparators (joined cmds) = joined cmds := by
  rcases cmds with _ | ⟨cmd, cmds⟩
  · rfl
  · obtain ⟨tail, htail, -⟩ := joined_cons cmd cmds
    rw [htail]
    exact (h cmd List.mem_cons_self).skipSeparators_append tail

/-! ## The loop -/

/-- A word cut off behind 160 characters is a command exactly when the whole word is. -/
theorem take_eq_command_iff {word cmd : List UInt8} (h : Command cmd) :
    word.take maxcmdSz = cmd ↔ word = cmd := by
  have hshort := h.short
  constructor
  · intro htake
    have hlen := congrArg List.length htake
    rw [List.length_take] at hlen
    rwa [List.take_of_length_le (by omega)] at htake
  · rintro rfl
    exact List.take_of_length_le hshort.le

/-- What is returned for the rest of a list, of which `n` commands have been passed. -/
def found (n : ℕ) (cmds : List (List UInt8)) (word : List UInt8) : ℤ :=
  (cmds.idxOf? word).elim (-1) fun k => Int.ofNat (n + k)

theorem found_cons (n : ℕ) (cmd : List UInt8) (cmds : List (List UInt8)) (word : List UInt8) :
    found n (cmd :: cmds) word = if word = cmd then Int.ofNat n else found (n + 1) cmds word := by
  rw [found, List.idxOf?_cons]
  by_cases h : word = cmd
  · simp [h]
  · rw [if_neg (by simpa using Ne.symm h), if_neg h, found]
    cases cmds.idxOf? word with
    | none => rfl
    | some k => exact congrArg Int.ofNat (Nat.add_right_comm n k 1)

/-- One round: the first command of a list goes to `cc`, and the separators behind it lead to the
list of the others. -/
theorem copyCommand_joined {cmd : List UInt8} {cmds : List (List UInt8)} (hcmd : Command cmd)
    (hcmds : ∀ c ∈ cmds, Command c) {cc : Scratch} (hcc : cc.Inside) :
    ∃ tail cc', copyCommand (joined (cmd :: cmds)) 0 (fillBlanks cc) = (tail, cc') ∧
      skipSeparators tail = joined cmds ∧ tail.length < (joined (cmd :: cmds)).length ∧
      cString cc'.mem (maxcmdSz + 1) = cmd ∧ cc'.Inside := by
  obtain ⟨tail, hjoined, htail⟩ := joined_cons cmd cmds
  have hhead : ∀ c ∈ tail.head?, c = chBackslash := by
    rcases htail with ⟨rfl, -⟩ | rfl <;> simp
  have hskip : skipSeparators tail = joined cmds := by
    rcases htail with ⟨rfl, rfl⟩ | rfl
    · rfl
    · rw [skipSeparators, List.dropWhile_cons_of_pos (by decide)]
      exact skipSeparators_joined hcmds
  have hblank : ∀ k < cmd.length, (fillBlanks cc).mem (0 + k) ≠ 0 := by
    intro k hk
    rw [Nat.zero_add, fillBlanks_mem cc (hk.trans hcmd.short)]
    decide
  obtain ⟨cc', hcopy, hcopied⟩ := copied_copyCommand (fillBlanks cc)
    (fun c hc => ⟨(hcmd.chars c hc).1, (hcmd.chars c hc).2.2.2⟩) hhead hblank
    (by rw [Nat.zero_add]; exact hcmd.short.le)
  have hpos : 0 < cmd.length := List.length_pos_iff.2 hcmd.nonempty
  rw [hjoined]
  refine ⟨tail, cc', hcopy, hskip, ?_, ?_, hcopied.inside (fillBlanks_inside hcc)⟩
  · rw [List.length_append]
    omega
  · exact hcopied.cString (fun h => (hcmd.chars 0 h).1 rfl) hcmd.short.le

/-- A list that is not empty does not begin with a zero. -/
theorem headD_joined {cmd : List UInt8} (hcmd : Command cmd) (cmds : List (List UInt8)) :
    (joined (cmd :: cmds)).headD 0 ≠ 0 := by
  obtain ⟨tail, hjoined, -⟩ := joined_cons cmd cmds
  obtain ⟨c, cmd, rfl⟩ := List.exists_cons_of_ne_nil hcmd.nonempty
  rw [hjoined]
  exact (hcmd.chars c List.mem_cons_self).1

/-- **The loop over the commands** ends with the first one that is equal to the word. The induction
is on the commands that are left; each round takes at least one character of the list. -/
theorem searchCommands_eq {sc : Scratch} {word : List UInt8}
    (hword : cString sc.mem (maxcmdSz + 1) = word.take maxcmdSz)
    {cmds : List (List UInt8)} (hcmds : ∀ c ∈ cmds, Command c) {cl : List UInt8}
    (hcl : skipSeparators cl = joined cmds) {fuel : ℕ} (hfuel : cl.length < fuel) {ccnt : UInt8}
    (hcount : ccnt.toNat + cmds.length < 256) {cc : Scratch} (hcc : cc.Inside) :
    ∃ cc', searchCommands sc fuel cl ccnt cc = some (found ccnt.toNat cmds word, cc') ∧
      cc'.Inside := by
  obtain ⟨fuel, rfl⟩ := Nat.exists_eq_add_of_lt hfuel
  induction cmds generalizing cl fuel ccnt cc with
  | nil =>
    refine ⟨fillBlanks cc, ?_, fillBlanks_inside hcc⟩
    rw [searchCommands, hcl]
    rfl
  | cons cmd cmds ih =>
    obtain ⟨hcmd, hcmds⟩ := List.forall_mem_cons.1 hcmds
    obtain ⟨tail, cc', hcopy, hskip, hlen, htext, hinside⟩ := copyCommand_joined hcmd hcmds hcc
    have hequal : cstrncmp sc.chars cc'.chars = true ↔ word = cmd := by
      rw [cstrncmp_chars, hword, htext, take_eq_command_iff hcmd]
    rw [searchCommands, hcl, if_neg (headD_joined hcmd cmds), hcopy, found_cons]
    by_cases h : word = cmd
    · rw [if_pos (hequal.2 h), if_pos h]
      exact ⟨cc', rfl, hinside⟩
    · have hcut : (joined (cmd :: cmds)).length ≤ cl.length := by
        rw [← hcl]
        exact (List.dropWhile_suffix _).length_le
      rw [List.length_cons] at hcount
      have hsucc : (ccnt + 1).toNat = ccnt.toNat + 1 :=
        toNat_add_one_of_lt (Nat.lt_succ_self _) (by omega)
      obtain ⟨rest, hrest⟩ := Nat.exists_eq_add_of_lt (show tail.length < cl.length + fuel by omega)
      rw [if_neg (mt hequal.1 h), if_neg h, ← hsucc, hrest]
      exact ih hcmds hskip (by omega) hinside rest (by omega)

/-! ## The result -/

/-- The first character that is not skipped is not the zero, unless the line is of blanks. -/
theorem headD_dropWhile_blank {line : List UInt8} (hzero : 0 ∉ line)
    (hall : ¬ ∀ c ∈ line, Blank c) : (line.dropWhile (Blank ·)).headD 0 ≠ 0 := by
  have hne : line.dropWhile (Blank ·) ≠ [] := by
    rw [Ne, List.dropWhile_eq_nil_iff]
    simpa using hall
  obtain ⟨b, rest, hcons⟩ := List.exists_cons_of_ne_nil hne
  have hb : b ∈ line := (List.dropWhile_suffix _).subset (hcons ▸ List.mem_cons_self)
  rw [hcons]
  exact fun h => hzero (h ▸ hb)

/-- The array `sc` holds the first word, cut off behind 160 characters. -/
theorem cString_copyWord {line : List UInt8} (hzero : 0 ∉ line) (sc : Scratch) :
    cString (copyWord (line.dropWhile (Blank ·)) 0 sc).mem (maxcmdSz + 1) =
        (firstWord line).take maxcmdSz ∧
      (sc.Inside → (copyWord (line.dropWhile (Blank ·)) 0 sc).Inside) := by
  have hrest : 0 ∉ line.dropWhile (Blank ·) := fun h =>
    hzero ((List.dropWhile_suffix _).subset h)
  have hcopied := copied_copyWord hrest (i := 0) (Nat.zero_le _) sc
  refine ⟨hcopied.cString (fun h => hrest ?_) ?_, hcopied.inside⟩
  · exact (List.takeWhile_prefix _).subset (List.mem_of_mem_take h)
  · rw [List.length_take]
    exact Nat.min_le_left _ _

/-- **The lookup of a command.** For a list of fewer than 256 commands and a line with at most 160
leading blanks, `cparse` returns with what is to be found, and it has stored inside its two arrays
only. -/
theorem cparse_joined (c : Console) {cmds : List (List UInt8)} (hcount : cmds.length < 256)
    (hcmds : ∀ cmd ∈ cmds, Command cmd) {line : List UInt8} (hzero : 0 ∉ line)
    (hblanks : (line.takeWhile (Blank ·)).length ≤ maxcmdSz) (cc sc : Mem) :
    ∃ p, cparse c (joined cmds) (some line) cc sc = some p ∧ p.result = lookup cmds line ∧
      p.cc.Inside ∧ p.sc.Inside := by
  have hskip : skipBlanks line 0 = line.dropWhile (Blank ·) :=
    skipBlanks_eq ((Nat.zero_add _).le.trans hblanks)
  have hempty : ∀ a : Mem, (⟨a, []⟩ : Scratch).Inside := fun a i hi => absurd hi List.not_mem_nil
  have hparse : cparse c (joined cmds) (some line) cc sc =
      parseLine c (joined cmds) line ⟨cc, []⟩ ⟨sc, []⟩ := rfl
  by_cases hall : ∀ c ∈ line, Blank c
  · have hnil : line.dropWhile (Blank ·) = [] := List.dropWhile_eq_nil_iff.2 (by simpa using hall)
    refine ⟨⟨-3, c, ⟨cc, []⟩, ⟨sc, []⟩⟩, ?_, (if_pos hall).symm, hempty cc, hempty sc⟩
    rw [hparse, parseLine, hskip, hnil]
    rfl
  · obtain ⟨hword, hstores⟩ := cString_copyWord hzero ⟨sc, []⟩
    have hfirst : (0 : UInt8).toNat + cmds.length < 256 := by
      rw [UInt8.toNat_zero, Nat.zero_add]
      exact hcount
    obtain ⟨cc', hsearch, hinside⟩ := searchCommands_eq hword hcmds (skipSeparators_joined hcmds)
      (Nat.lt_add_one _) hfirst (hempty cc)
    refine ⟨⟨found 0 cmds (firstWord line), c, cc', _⟩, ?_, ?_, hinside, hstores (hempty sc)⟩
    · rw [hparse, parseLine, hskip, if_neg (headD_dropWhile_blank hzero hall)]
      dsimp only
      rw [hsearch]
      rfl
    · rw [lookup, if_neg hall, found]
      cases cmds.idxOf? (firstWord line) with
      | none => rfl
      | some k => exact congrArg Int.ofNat (Nat.zero_add k)

/-- `commands` of `coninput.cpp`: `?`, `??`, `reset`, `r`, `w`, `wx`, `nvdata`, `out`. -/
def commands : List (List UInt8) :=
  [[0x3F], [0x3F, 0x3F], [0x72, 0x65, 0x73, 0x65, 0x74], [0x72], [0x77], [0x77, 0x78],
    [0x6E, 0x76, 0x64, 0x61, 0x74, 0x61], [0x6F, 0x75, 0x74]]

theorem command_of_mem_commands : ∀ cmd ∈ commands, Command cmd := by
  have hall : ∀ cmd ∈ commands, cmd ≠ [] ∧ cmd.length < maxcmdSz ∧
      ∀ c ∈ cmd, c ≠ 0 ∧ c ≠ chSpace ∧ c ≠ chEquals ∧ c ≠ chBackslash := by
    decide +kernel
  intro cmd hcmd
  obtain ⟨hne, hshort, hchars⟩ := hall cmd hcmd
  exact ⟨hne, hshort, hchars⟩

/-- The line ` wx 1=2` is the command of the index 5. -/
theorem cparse_commands :
    let line : List UInt8 := [chSpace, 0x77, 0x78, chSpace, 0x31, chEquals, 0x32]
    lookup commands line = 5 ∧
      ∃ p, cparse initial (joined commands) (some line) (fun _ => 0) (fun _ => 0) = some p ∧
        p.result = lookup commands line ∧ p.cc.Inside ∧ p.sc.Inside :=
  ⟨by decide, cparse_joined initial (by decide) command_of_mem_commands (by decide)
    (by decide +kernel) (fun _ => 0) (fun _ => 0)⟩

end KS3.Comm
