import KS3.Foundations.Run
import KS3.Foundations.Memory

/-!
# The line editor of the console

`constrinput.c` collects what is typed in the array `cstr`. One variable, `cbcnt`, counts the
characters and has in its bit `0x80` the flag that a line is ready; `cgets` looks at that bit only.

`Session` is the console with the line an editor would show beside it: `edit` says what a character
does to it. `Answers` is what a caller who polls `cgets` after every character is to see.

Three things go wrong: a backspace on an empty line falls through all tests and is stored as a
character, the 128th character of a line sets the flag by counting, and a zero that is typed ends
the string before the line ends.

* `answers_of_typable`: in every run without these three, `cgets` gives each line when it is ended
  and nothing in between.
-/

namespace KS3.Comm

/-! ## The code -/

/-- `CSTR_SZ`. -/
def cstrSz : ℕ := 164

/-- The character LF. -/
def chLF : UInt8 := 0x0A

/-- The character CR. -/
def chCR : UInt8 := 0x0D

/-- The backspace. -/
def chBS : UInt8 := 0x08

/-- The characters that are not entered into a line: LF, `~` and `*`. -/
def Service (b : UInt8) : Prop := b = chLF ∨ b = 0x7E ∨ b = 0x2A

instance (b : UInt8) : Decidable (Service b) := inferInstanceAs (Decidable (_ ∨ _ ∨ _))

/-- The static variables of the file, with the characters that have been echoed. -/
structure Console where
  cstr : Mem
  cbcnt : UInt16
  cbyte : UInt8
  conEcho : Bool
  echo : List UInt8

/-- The variables at the start of the program. -/
def initial : Console := ⟨fun _ => 0, 0, 0, true, []⟩

/-- The zero-terminated string at the beginning of an array of `n` octets. -/
def cString (m : Mem) (n : ℕ) : List UInt8 := (m.read 0 n).takeWhile (· ≠ 0)

namespace Console

/-- The start of `cprocbyte` for a character that is not a service one: a new line begins when the
last one is ready, and the character is echoed. -/
def beginByte (c : Console) (b : UInt8) : Console :=
  let c := if c.cbcnt &&& 0x80 ≠ 0 then { c with cbcnt := 0 } else c
  if c.conEcho then { c with echo := c.echo ++ [b] } else c

/-- The rest of `cprocbyte`. -/
def enterByte (c : Console) (b : UInt8) : Console :=
  if b = chBS ∧ c.cbcnt ≠ 0x80 ∧ c.cbcnt ≠ 0 then
    { c with cbcnt := c.cbcnt - 1 }
  else if b = chCR then
    { c with cstr := c.cstr.store c.cbcnt.toNat 0, cbcnt := c.cbcnt ||| 0x80 }
  else if cstrSz ≤ c.cbcnt.toNat then
    { c with cstr := c.cstr.store cstrSz 0, cbcnt := c.cbcnt ||| 0x80 }
  else
    { c with cstr := c.cstr.store c.cbcnt.toNat b, cbcnt := c.cbcnt + 1 }

/-- `cprocbyte`. -/
def cprocbyte (c : Console) (b : UInt8) : Console :=
  let c := { c with cbyte := b }
  if Service b then c else (c.beginByte b).enterByte b

/-- `cgets`: the string it returns, nothing for a null pointer. -/
def cgets (c : Console) : Option (List UInt8) × Console :=
  if c.cbcnt &&& 0x80 = 0 then (none, c)
  else (some (cString c.cstr (cstrSz + 1)), { c with cbcnt := 0 })

end Console

/-! ## What is to be seen -/

/-- What a character does to a line: the service characters nothing, a backspace takes the last
character away if there is one. -/
def edit (line : List UInt8) (b : UInt8) : List UInt8 :=
  if Service b then line else if b = chBS then line.dropLast else line ++ [b]

/-- The line after a character, where CR begins a new one. -/
def nextLine (line : List UInt8) (b : UInt8) : List UInt8 :=
  if b = chCR then [] else edit line b

/-- A character that the editor handles as it is meant to: no backspace on an empty line, no
character that is the 128th of its line, no CR behind a line with a zero. -/
structure Typable (line : List UInt8) (b : UInt8) : Prop where
  backspace : b = chBS → line ≠ []
  short : ¬ Service b → b ≠ chBS → b ≠ chCR → line.length < 127
  nonzero : b = chCR → 0 ∉ line

/-- The console and the line typed since `cgets` last returned one. -/
structure Session where
  console : Console
  line : List UInt8

namespace Session

/-- What `cgets` returns after a character. -/
def reply (s : Session) (b : UInt8) : Option (List UInt8) := (s.console.cprocbyte b).cgets.1

/-- A character and the poll of `cgets` after it. -/
def step (s : Session) (b : UInt8) : Session where
  console := (s.console.cprocbyte b).cgets.2
  line := if (s.reply b).isSome then [] else edit s.line b

/-- What a caller is to see after a character: a line only after CR or when it has become longer
than 164 characters, and after CR the line typed. -/
structure Answers (s : Session) (b : UInt8) : Prop where
  only : (s.reply b).isSome → b = chCR ∨ cstrSz < (edit s.line b).length
  line : b = chCR → s.line.length ≤ cstrSz → s.reply b = some s.line

/-- The line is in the array, and its length in the counter without the flag. -/
structure Holds (s : Session) : Prop where
  count : s.console.cbcnt.toNat = s.line.length
  short : s.line.length < 128
  text : s.console.cstr.read 0 s.line.length = s.line

end Session

/-! ## The flag -/

theorem flag_clear {n : UInt16} (h : n.toNat < 128) : n &&& 0x80 = 0 := by
  apply UInt16.toNat_inj.1
  rw [UInt16.toNat_and]
  change n.toNat &&& 2 ^ 7 = 0
  rw [Nat.and_two_pow, Nat.testBit_lt_two_pow h]
  rfl

theorem flag_set (n : UInt16) : (n ||| 0x80) &&& 0x80 ≠ 0 := by
  intro h
  have hnat := congrArg UInt16.toNat h
  rw [UInt16.toNat_and, UInt16.toNat_or] at hnat
  change (n.toNat ||| 2 ^ 7) &&& 2 ^ 7 = 0 at hnat
  rw [Nat.and_two_pow, Nat.testBit_or, Nat.testBit_two_pow_self, Bool.or_true] at hnat
  exact absurd hnat (by decide)

namespace Console

theorem cgets_of_clear {c : Console} (h : c.cbcnt &&& 0x80 = 0) : c.cgets = (none, c) := if_pos h

theorem cgets_of_set {c : Console} (h : c.cbcnt &&& 0x80 ≠ 0) :
    c.cgets = (some (cString c.cstr (cstrSz + 1)), { c with cbcnt := 0 }) := if_neg h

theorem beginByte_of_clear {c : Console} (h : c.cbcnt &&& 0x80 = 0) (b : UInt8) :
    (c.beginByte b).cbcnt = c.cbcnt ∧ (c.beginByte b).cstr = c.cstr := by
  rw [beginByte, if_neg (not_not.2 h)]
  split_ifs
  · exact ⟨rfl, rfl⟩
  · exact ⟨rfl, rfl⟩

end Console

/-- The string of an array that holds a text with a zero behind it. -/
theorem cString_store {m : Mem} {line : List UInt8} (htext : m.read 0 line.length = line)
    (hzero : 0 ∉ line) {n : ℕ} (hn : line.length < n) :
    cString (m.store line.length 0) n = line := by
  obtain ⟨k, rfl⟩ := Nat.exists_eq_add_of_lt hn
  have hread : (m.store line.length 0).read 0 line.length = line := by
    rw [Mem.read_store_of_le _ (Nat.zero_add _).le, htext]
  have hall : ∀ b ∈ line, decide (b ≠ 0) = true := by
    intro b hb
    exact decide_eq_true fun h => hzero (h ▸ hb)
  rw [cString, Nat.add_assoc, Mem.read_add, hread, Nat.zero_add, Mem.read_succ_eq_cons,
    Mem.store_self, List.takeWhile_append_of_pos hall]
  simp

/-! ## Runs -/

namespace Session

variable {s : Session} {b : UInt8}

/-- A character other than CR after which the flag is clear is answered as it is to be. -/
theorem quiet (hclear : (s.console.cprocbyte b).cbcnt &&& 0x80 = 0) (hcr : b ≠ chCR) :
    s.Answers b ∧ s.step b = ⟨s.console.cprocbyte b, nextLine s.line b⟩ := by
  have hget := Console.cgets_of_clear hclear
  have hreply : s.reply b = none := congrArg Prod.fst hget
  refine ⟨⟨fun h => ?_, fun h => absurd h hcr⟩, ?_⟩
  · rw [hreply] at h
    exact absurd h Bool.false_ne_true
  · rw [step, hreply, hget, nextLine, if_neg hcr]
    rfl

section Holds

variable (h : s.Holds)

include h

theorem Holds.clear : s.console.cbcnt &&& 0x80 = 0 := flag_clear (h.count ▸ h.short)

/-- A service character. -/
theorem Holds.service (hb : Service b) :
    s.Answers b ∧ (s.step b).Holds ∧ (s.step b).line = nextLine s.line b := by
  have hbyte : s.console.cprocbyte b = { s.console with cbyte := b } := if_pos hb
  have hcr : b ≠ chCR := by
    rintro rfl
    exact absurd hb (by decide)
  have hline : nextLine s.line b = s.line := by
    rw [nextLine, if_neg hcr, edit, if_pos hb]
  obtain ⟨hanswers, hstep⟩ := quiet (s := s) (b := b) (by rw [hbyte]; exact h.clear) hcr
  rw [hstep, hbyte, hline]
  exact ⟨hanswers, ⟨h.count, h.short, h.text⟩, rfl⟩

/-- The console that `enterByte` works on: nothing of it has changed but the echo. -/
theorem Holds.cprocbyte (hb : ¬ Service b) :
    ∃ c : Console, s.console.cprocbyte b = c.enterByte b ∧ c.cbcnt = s.console.cbcnt ∧
      c.cstr = s.console.cstr := by
  have hclear : ({ s.console with cbyte := b } : Console).cbcnt &&& 0x80 = 0 := h.clear
  obtain ⟨hcount, htext⟩ := Console.beginByte_of_clear hclear b
  exact ⟨_, if_neg hb, hcount, htext⟩

/-- A backspace that has a character to delete. -/
theorem Holds.backspace (hne : s.line ≠ []) :
    s.Answers chBS ∧ (s.step chBS).Holds ∧ (s.step chBS).line = nextLine s.line chBS := by
  obtain ⟨c, hbyte, hcount, htext⟩ := h.cprocbyte (b := chBS) (by decide)
  have hpos : 0 < s.line.length := List.length_pos_iff.2 hne
  have hnat : c.cbcnt.toNat = s.line.length := by rw [hcount, h.count]
  have hshort := h.short
  have hflag : c.cbcnt ≠ 0x80 := by
    intro h80
    rw [h80] at hnat
    change 128 = _ at hnat
    omega
  have hzero : c.cbcnt ≠ 0 := by
    intro h0
    rw [h0] at hnat
    change 0 = _ at hnat
    omega
  have henter : c.enterByte chBS = { c with cbcnt := c.cbcnt - 1 } := if_pos ⟨rfl, hflag, hzero⟩
  have hpred : (c.cbcnt - 1).toNat = s.line.length - 1 := by
    rw [UInt16.toNat_sub_of_le _ _ (UInt16.le_iff_toNat_le.2 (by rw [hnat]; exact hpos)), hnat]
    rfl
  have hline : nextLine s.line chBS = s.line.dropLast := rfl
  obtain ⟨hanswers, hstep⟩ := quiet (s := s) (b := chBS)
    (by rw [hbyte, henter]; exact flag_clear (by rw [hpred]; omega)) (by decide)
  rw [hstep, hbyte, henter, hline]
  refine ⟨hanswers, ⟨?_, ?_, ?_⟩, rfl⟩
  · rw [hpred, List.length_dropLast]
  · rw [List.length_dropLast]
    omega
  · change c.cstr.read 0 s.line.dropLast.length = s.line.dropLast
    have htake : s.line.dropLast = (s.console.cstr.read 0 s.line.length).dropLast := by rw [h.text]
    rw [htake, htext, List.dropLast_eq_take, Mem.length_read,
      Mem.take_read _ (Nat.sub_le _ _), Mem.length_read]

/-- The end of a line. -/
theorem Holds.cr (hzero : 0 ∉ s.line) :
    s.Answers chCR ∧ (s.step chCR).Holds ∧ (s.step chCR).line = nextLine s.line chCR := by
  obtain ⟨c, hbyte, hcount, htext⟩ := h.cprocbyte (b := chCR) (by decide)
  have hnat : c.cbcnt.toNat = s.line.length := by rw [hcount, h.count]
  have hshort := h.short
  have hbs : ¬ (chCR = chBS ∧ c.cbcnt ≠ 0x80 ∧ c.cbcnt ≠ 0) := fun hb => absurd hb.1 (by decide)
  have henter : c.enterByte chCR =
      { c with cstr := s.console.cstr.store s.line.length 0, cbcnt := c.cbcnt ||| 0x80 } := by
    rw [Console.enterByte, if_neg hbs, if_pos rfl, hnat, htext]
  have hget : (s.console.cprocbyte chCR).cgets = (some s.line,
      { c with cstr := s.console.cstr.store s.line.length 0, cbcnt := 0 }) := by
    rw [hbyte, henter, Console.cgets_of_set (flag_set c.cbcnt)]
    simp only [cString_store h.text hzero (show s.line.length < cstrSz + 1 by
      rw [cstrSz]; omega)]
  have hreply : s.reply chCR = some s.line := congrArg Prod.fst hget
  have hstep : s.step chCR =
      ⟨{ c with cstr := s.console.cstr.store s.line.length 0, cbcnt := 0 }, []⟩ := by
    rw [step, hreply, hget]
    rfl
  refine ⟨⟨fun _ => Or.inl rfl, fun _ _ => hreply⟩, ?_, ?_⟩
  · rw [hstep]
    exact ⟨rfl, Nat.succ_pos 127, rfl⟩
  · rw [hstep]
    rfl

/-- A character of the line. -/
theorem Holds.character (hb : ¬ Service b) (hbs : b ≠ chBS) (hcr : b ≠ chCR)
    (hlt : s.line.length < 127) :
    s.Answers b ∧ (s.step b).Holds ∧ (s.step b).line = nextLine s.line b := by
  obtain ⟨c, hbyte, hcount, htext⟩ := h.cprocbyte hb
  have hnat : c.cbcnt.toNat = s.line.length := by rw [hcount, h.count]
  have hroom : ¬ cstrSz ≤ c.cbcnt.toNat := by
    rw [hnat, cstrSz]
    omega
  have henter : c.enterByte b =
      { c with cstr := s.console.cstr.store s.line.length b, cbcnt := c.cbcnt + 1 } := by
    rw [Console.enterByte, if_neg fun h => hbs h.1, if_neg hcr, if_neg hroom, hnat, htext]
  have hsucc : (c.cbcnt + 1).toNat = s.line.length + 1 := by
    rw [UInt16.toNat_add, hnat]
    exact Nat.mod_eq_of_lt (by change s.line.length + 1 < 65536; omega)
  have hline : nextLine s.line b = s.line ++ [b] := by
    rw [nextLine, if_neg hcr, edit, if_neg hb, if_neg hbs]
  obtain ⟨hanswers, hstep⟩ := quiet (s := s) (b := b)
    (by rw [hbyte, henter]; exact flag_clear (by rw [hsucc]; omega)) hcr
  rw [hstep, hbyte, henter, hline]
  refine ⟨hanswers, ⟨?_, ?_, ?_⟩, rfl⟩
  · rw [hsucc, List.length_append, List.length_singleton]
  · rw [List.length_append, List.length_singleton]
    omega
  · change (s.console.cstr.store s.line.length b).read 0 (s.line ++ [b]).length = s.line ++ [b]
    rw [List.length_append, List.length_singleton, Mem.read_succ, Nat.zero_add, Mem.store_self,
      Mem.read_store_of_le _ (Nat.zero_add _).le, h.text]

/-- **One character** is answered as it is to be, and the line stays in the array. -/
theorem Holds.next (hb : Typable s.line b) :
    s.Answers b ∧ (s.step b).Holds ∧ (s.step b).line = nextLine s.line b := by
  by_cases hservice : Service b
  · exact h.service hservice
  · by_cases hbs : b = chBS
    · subst hbs
      exact h.backspace (hb.backspace rfl)
    · by_cases hcr : b = chCR
      · subst hcr
        exact h.cr (hb.nonzero rfl)
      · exact h.character hservice hbs hcr (hb.short hservice hbs hcr)

end Holds

/-- **What `cgets` returns.** Let characters be typed from an empty line, none of them a backspace
on an empty line, the 128th character of its line or a CR behind a line with a zero. After each of
them a caller sees what he is to see: a line exactly when it is ended, and the line typed. -/
theorem answers_of_typable {c : Console} (hempty : c.cbcnt = 0) {bs : List UInt8}
    (htypable : ∀ m ∈ Run.steps nextLine [] bs, Typable m.1 m.2) :
    ∀ m ∈ Run.steps step ⟨c, []⟩ bs, m.1.Answers m.2 := by
  have hrun : ∀ (bs : List UInt8) (s : Session), s.Holds →
      (∀ m ∈ Run.steps nextLine s.line bs, Typable m.1 m.2) →
      ∀ m ∈ Run.steps step s bs, m.1.Answers m.2 := by
    intro bs
    induction bs with
    | nil => simp
    | cons b bs ih =>
      intro s hs htypable
      rw [Run.steps_cons, List.forall_mem_cons] at htypable ⊢
      obtain ⟨hanswers, hstep, hline⟩ := hs.next htypable.1
      exact ⟨hanswers, ih _ hstep (hline ▸ htypable.2)⟩
  exact hrun bs ⟨c, []⟩ ⟨by rw [hempty]; rfl, Nat.succ_pos 127, rfl⟩ htypable

/-- The line `ab`, typed with an error and a `*` in it. -/
theorem answers_corrected :
    let bs : List UInt8 := [97, 99, chBS, 0x2A, 98, chCR]
    (∀ m ∈ Run.steps nextLine [] bs, Typable m.1 m.2) ∧
      ∀ m ∈ Run.steps step ⟨initial, []⟩ bs, m.1.Answers m.2 := by
  have htypable : ∀ m ∈ Run.steps nextLine [] [97, 99, chBS, 0x2A, 98, chCR],
      Typable m.1 m.2 := by
    have hall : ∀ m ∈ Run.steps nextLine [] [97, 99, chBS, 0x2A, 98, chCR],
        (m.2 = chBS → m.1 ≠ []) ∧ m.1.length < 127 ∧ 0 ∉ m.1 := by decide
    intro m hm
    obtain ⟨hbs, hlt, hzero⟩ := hall m hm
    exact ⟨hbs, fun _ _ _ => hlt, fun _ => hzero⟩
  exact ⟨htypable, answers_of_typable rfl htypable⟩

/-- A backspace and CR on an empty line give a line with the backspace in it, and the 128th
character of a line gives a line before it is ended. -/
theorem answers_wrong :
    ¬ (∀ m ∈ Run.steps step ⟨initial, []⟩ [chBS, chCR], m.1.Answers m.2) ∧
      ¬ ∀ m ∈ Run.steps step ⟨initial, []⟩ (List.replicate 128 97), m.1.Answers m.2 := by
  refine ⟨fun hall => ?_, fun hall => ?_⟩
  · have hmem := Run.mem_steps_append_cons step ⟨initial, []⟩ [chBS] chCR []
    have hline := (hall _ hmem).line rfl (by decide +kernel)
    exact absurd hline (by decide +kernel)
  · have hmem := Run.mem_steps_append_cons step ⟨initial, []⟩ (List.replicate 127 97) 97 []
    have honly := (hall _ hmem).only (by decide +kernel)
    exact absurd honly (by decide +kernel)

end Session

end KS3.Comm
