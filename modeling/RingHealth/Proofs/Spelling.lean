import Mathlib.Data.List.Forall2
import RingHealth.Scope

namespace RingHealth

namespace Text

/-- Whether two characters are equal or one of them is an upper-case ASCII letter and the other the
same letter in lower case. -/
def SameLetter (first second : Char) : Prop :=
  first = second ∨ first.isUpper = true ∧ second.toNat = first.toNat + 32 ∨
    second.isUpper = true ∧ first.toNat = second.toNat + 32

/-- Whether a character stands in a text, and not among the blank characters around it: the text up
to the character is not all blank, and neither is the text from it on. -/
def Inside (text : List Char) (c : Char) : Prop :=
  ∃ before after, text = before ++ c :: after ∧ (∃ other ∈ before ++ [c], isBlank other = false) ∧
    ∃ other ∈ c :: after, isBlank other = false

variable {text front core back before after name : List Char} {c letter : Char}

theorem trimStart_append (frontBlank : ∀ c ∈ front, isBlank c = true)
    (visible : ∀ c ∈ core.head?, isBlank c = false) : trimStart (front ++ core) = core := by
  rw [trimStart, List.dropWhile_append_of_pos frontBlank]
  cases core with
  | nil => rfl
  | cons first rest =>
      rw [List.dropWhile_cons_of_neg]
      simpa using visible first rfl

theorem trim_append (frontBlank : ∀ c ∈ front, isBlank c = true)
    (backBlank : ∀ c ∈ back, isBlank c = true) (nonempty : core ≠ [])
    (visible : ∀ c ∈ core, isBlank c = false) : trim (front ++ core ++ back) = core := by
  have first : trimStart (front ++ core ++ back) = core ++ back := by
    rw [List.append_assoc]
    refine trimStart_append frontBlank fun c isFirst => visible c ?_
    rw [List.head?_append_of_ne_nil _ nonempty] at isFirst
    exact List.mem_of_mem_head? isFirst
  have last : trimStart (core ++ back).reverse = core.reverse := by
    rw [List.reverse_append]
    refine trimStart_append (fun c member => backBlank c (List.mem_reverse.mp member)) ?_
    exact fun c isLast => visible c (List.mem_reverse.mp (List.mem_of_mem_head? isLast))
  rw [trim, first, last, List.reverse_reverse]

theorem trimStart_exists (text : List Char) :
    ∃ front, text = front ++ trimStart text ∧ ∀ c ∈ front, isBlank c = true :=
  ⟨text.takeWhile isBlank, List.takeWhile_append_dropWhile.symm,
    List.all_eq_true.mp List.all_takeWhile⟩

theorem trim_exists (text : List Char) :
    ∃ front back, text = front ++ trim text ++ back ∧ (∀ c ∈ front, isBlank c = true) ∧
      ∀ c ∈ back, isBlank c = true := by
  obtain ⟨front, split, frontBlank⟩ := trimStart_exists text
  obtain ⟨back, splitBack, backBlank⟩ := trimStart_exists (trimStart text).reverse
  refine ⟨front, back.reverse, ?_, frontBlank,
    fun c member => backBlank c (List.mem_reverse.mp member)⟩
  have whole := congrArg List.reverse splitBack
  rw [List.reverse_reverse, List.reverse_append] at whole
  rw [List.append_assoc, trim, ← whole]
  exact split

/-- Visible ASCII characters are not blank. -/
theorem isBlank_of_visible (above : 0x20 < c.toNat) (below : c.toNat < 0x80) :
    isBlank c = false := by
  simp [isBlank, blankRuns]
  omega

theorem toUpper_cases (c : Char) :
    c.toUpper = c ∧ (c.toNat < 0x61 ∨ 0x7a < c.toNat) ∨
      0x61 ≤ c.toNat ∧ c.toNat ≤ 0x7a ∧ c.toNat = c.toUpper.toNat + 32 := by
  by_cases lower : 'a'.val ≤ c.val ∧ c.val ≤ 'z'.val
  · have bounds : 0x61 ≤ c.val.toNat ∧ c.val.toNat ≤ 0x7a := lower
    have shifted : c.toUpper.val = c.val + ('A'.val - 'a'.val) := by
      delta Char.toUpper
      rw [dif_pos lower]
    have sum := congrArg UInt32.toNat shifted
    have distance : ('A'.val - 'a'.val).toNat = UInt32.size - 32 := rfl
    rw [UInt32.toNat_add, distance] at sum
    refine .inr ⟨bounds.1, bounds.2, ?_⟩
    change c.val.toNat = c.toUpper.val.toNat + 32
    simp only [UInt32.size] at sum
    omega
  · have bounds : ¬ (0x61 ≤ c.toNat ∧ c.toNat ≤ 0x7a) := lower
    exact .inl ⟨dif_neg lower, by omega⟩

theorem isUpper_iff (c : Char) : c.isUpper = true ↔ 0x41 ≤ c.toNat ∧ c.toNat ≤ 0x5a :=
  decide_eq_true_iff

theorem sameLetter_iff_toUpper (upper : letter.toUpper = letter) :
    SameLetter c letter ↔ c.toUpper = letter := by
  have ofLetter := toUpper_cases letter
  have ofOther := toUpper_cases c
  simp only [SameLetter, isUpper_iff, ← Char.toNat_inj] at *
  omega

theorem forall₂_sameLetter_iff (upper : ∀ c ∈ name, c.toUpper = c) :
    List.Forall₂ SameLetter core name ↔ core.map Char.toUpper = name := by
  induction core generalizing name with
  | nil => simp [List.forall₂_nil_left_iff, eq_comm]
  | cons first rest restIH =>
      cases name with
      | nil => simp
      | cons letter name =>
          rw [List.forall₂_cons, List.map_cons, List.cons.injEq,
            sameLetter_iff_toUpper (upper letter (by simp)),
            restIH fun c member => upper c (by simp [member])]

theorem not_mem_of_blank (blank : ∀ c ∈ text, isBlank c = true) (visible : isBlank c = false) :
    c ∉ text := by
  intro member
  rw [blank c member] at visible
  contradiction

/-- What is not among the blank characters at the end of a text comes before them. -/
theorem mem_of_append_eq (split : core ++ back = before ++ c :: after)
    (backBlank : ∀ c ∈ back, isBlank c = true)
    (visible : ∃ other ∈ c :: after, isBlank other = false) : c ∈ core := by
  obtain ⟨other, inAfter, notBlank⟩ := visible
  have notInBack := not_mem_of_blank backBlank notBlank
  rcases List.append_eq_append_iff.mp split with ⟨more, rfl, rest⟩ | ⟨more, rfl, rest⟩
  · exact absurd (rest ▸ List.mem_append_right more inAfter) notInBack
  · cases more with
    | nil =>
        rw [rest] at inAfter
        exact absurd inAfter notInBack
    | cons first more =>
        obtain ⟨rfl, _⟩ := List.cons.inj rest
        simp

theorem mem_of_inside (inside : Inside (front ++ core ++ back) c)
    (frontBlank : ∀ c ∈ front, isBlank c = true) (backBlank : ∀ c ∈ back, isBlank c = true) :
    c ∈ core := by
  obtain ⟨before, after, split, ⟨other, inBefore, notBlank⟩, visible⟩ := inside
  have notInFront := not_mem_of_blank frontBlank notBlank
  rw [List.append_assoc] at split
  rcases List.append_eq_append_iff.mp split with ⟨more, rfl, rest⟩ | ⟨more, rfl, rest⟩
  · exact mem_of_append_eq rest backBlank visible
  · cases more with
    | nil =>
        have atStart : core ++ back = [] ++ c :: after := rest.symm
        exact mem_of_append_eq atStart backBlank visible
    | cons first more =>
        obtain ⟨rfl, _⟩ := List.cons.inj rest
        rw [List.append_cons] at notInFront
        exact absurd (List.mem_append_left more inBefore) notInFront

end Text

namespace Level

/-- Whether a text is the name of a level up to the case of ASCII letters, between blank
characters. -/
def Spelled (level : Level) (text : String) : Prop :=
  ∃ front core back, text.toList = front ++ core ++ back ∧
    (∀ c ∈ front, Text.isBlank c = true) ∧ (∀ c ∈ back, Text.isBlank c = true) ∧
    List.Forall₂ Text.SameLetter core level.name.toList

variable {level : Level} {text name : String} {core : List Char} {c : Char}

theorem name_visible (level : Level) :
    ∀ letter ∈ level.name.toList,
      letter.toUpper = letter ∧ 0x40 < letter.toNat ∧ letter.toNat < 0x60 := by
  have visible : (level.name.toList.all fun letter => letter.toUpper == letter &&
      (decide (0x40 < letter.toNat) && decide (letter.toNat < 0x60))) = true := by
    cases level <;> rfl
  simpa only [List.all_eq_true, Bool.and_eq_true, beq_iff_eq, decide_eq_true_eq] using visible

theorem name_nonempty (level : Level) : level.name.toList ≠ [] := by
  cases level <;> decide

theorem forall₂_name_iff :
    List.Forall₂ Text.SameLetter core level.name.toList ↔
      core.map Char.toUpper = level.name.toList :=
  Text.forall₂_sameLetter_iff fun letter member => (level.name_visible letter member).1

/-- The characters of a name, in either case, are visible ASCII characters. -/
theorem visible_of_forall₂ (spells : List.Forall₂ Text.SameLetter core level.name.toList)
    (member : c ∈ core) : c.toNat < 0x80 ∧ Text.isBlank c = false := by
  rw [forall₂_name_iff] at spells
  obtain ⟨_, above, below⟩ :=
    level.name_visible c.toUpper (spells ▸ List.mem_map_of_mem member)
  have visible : 0x20 < c.toNat ∧ c.toNat < 0x80 := by
    rcases Text.toUpper_cases c with ⟨same, _⟩ | ⟨_, _, shifted⟩
    · rw [same] at above below
      omega
    · omega
  exact ⟨visible.2, Text.isBlank_of_visible visible.1 visible.2⟩

theorem ofText?_eq_some_iff : ofText? text = some level ↔ level.Spelled text := by
  rw [ofText?, Named.ofName?_eq_some_iff]
  change level.name = _ ↔ _
  constructor
  · intro named
    obtain ⟨front, back, split, frontBlank, backBlank⟩ := Text.trim_exists text.toList
    refine ⟨front, _, back, split, frontBlank, backBlank, ?_⟩
    rw [forall₂_name_iff, named, String.toList_ofList]
  · rintro ⟨front, core, back, split, frontBlank, backBlank, spells⟩
    have visible : ∀ c ∈ core, Text.isBlank c = false :=
      fun c member => (visible_of_forall₂ spells member).2
    have nonempty : core ≠ [] := by
      rintro rfl
      exact level.name_nonempty (List.forall₂_nil_left_iff.mp spells)
    rw [split, Text.trim_append frontBlank backBlank nonempty visible, forall₂_name_iff.mp spells,
      String.ofList_toList]

theorem parse_eq_ok_iff : parse text = .ok level ↔ level.Spelled text := by
  rw [← ofText?_eq_some_iff, parse]
  cases ofText? text <;> simp

theorem parse_of_not_spelled (unknown : ∀ level : Level, ¬ level.Spelled text) :
    parse text = .error (.unknownLevel text) := by
  have none : ofText? text = none := by
    rw [Option.eq_none_iff_forall_ne_some]
    intro level found
    exact unknown level (ofText?_eq_some_iff.mp found)
  rw [parse, none]

/-- Exactly the texts that spell a level are read, and as that level; any other text is given back
in the fault as it is.  No text spells two levels.  A text spells none if a blank character stands
inside it, or a character that is no ASCII character. -/
theorem parse_spelled :
    (∀ (text : String) (level : Level), parse text = .ok level ↔ level.Spelled text) ∧
    (∀ text : String, (∀ level : Level, ¬ level.Spelled text) →
      parse text = .error (.unknownLevel text)) ∧
    (∀ (text : String) (first second : Level), first.Spelled text → second.Spelled text →
      first = second) ∧
    (∀ (text : String) (c : Char), Text.Inside text.toList c →
      Text.isBlank c = true ∨ 0x80 ≤ c.toNat → parse text = .error (.unknownLevel text)) ∧
    ∀ level : Level, parse level.name = .ok level := by
  refine ⟨fun text level => parse_eq_ok_iff, fun text => parse_of_not_spelled, ?_, ?_, ?_⟩
  · intro text first second spelled alsoSpelled
    have same := (parse_eq_ok_iff.mpr spelled).symm.trans (parse_eq_ok_iff.mpr alsoSpelled)
    exact Except.ok.inj same
  · intro text c inside foreign
    apply parse_of_not_spelled
    rintro level ⟨front, core, back, split, frontBlank, backBlank, spells⟩
    rw [split] at inside
    have visible := visible_of_forall₂ spells (Text.mem_of_inside inside frontBlank backBlank)
    rcases foreign with blank | beyond
    · rw [visible.2] at blank
      contradiction
    · omega
  · intro level
    refine parse_eq_ok_iff.mpr ⟨[], level.name.toList, [], by simp, by simp, by simp, ?_⟩
    exact List.forall₂_same.mpr fun c _ => .inl rfl

/-- A name in mixed case between a tab and an ideographic space is read.  The long s, which is
another lower-case letter of `S`, makes a text no name, and so does a space inside it. -/
theorem parse_spelled_mixed_case :
    Spelled .localSerial "\tLocal_sErial\u3000" ∧
    (∀ level : Level, level.Spelled "\tLocal_sErial\u3000" → level = .localSerial) ∧
    parse " \u017fERIAL " = .error (.unknownLevel " \u017fERIAL ") ∧
    parse " LOCAL ONE " = .error (.unknownLevel " LOCAL ONE ") ∧
    parse "most" = .error (.unknownLevel "most") := by
  obtain ⟨read, refused, unique, foreign, _⟩ := parse_spelled
  have spelled : Spelled .localSerial "\tLocal_sErial\u3000" := (read _ _).mp (by decide)
  refine ⟨spelled, fun level also => unique _ _ _ also spelled, ?_, ?_, ?_⟩
  · refine foreign _ '\u017f' ⟨[' '], "ERIAL ".toList, by decide, ?_, ?_⟩ (by decide)
    · exact ⟨'\u017f', by decide, by decide⟩
    · exact ⟨'\u017f', by decide, by decide⟩
  · refine foreign _ ' ' ⟨" LOCAL".toList, "ONE ".toList, by decide, ?_, ?_⟩ (by decide)
    · exact ⟨'L', by decide, by decide⟩
    · exact ⟨'O', by decide, by decide⟩
  · refine refused _ fun level spelled => ?_
    have accepted := (read _ _).mpr spelled
    have failed : parse "most" = .error (.unknownLevel "most") := by decide
    rw [failed] at accepted
    cases accepted

end Level

end RingHealth
