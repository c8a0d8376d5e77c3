import Deduction.Version
import Mathlib.Data.List.Basic
import Mathlib.Data.List.Induction
import Mathlib.Data.Nat.Digits.Defs

/-!
# Versions and their text

A component of a version is read from a **numeral**, a run of decimal digits
that may begin with zeros; what it stands for is the number with these digits in
base ten.  A text is a version when it is made of three numerals with dots in
between, each below `2 ^ 32`.  Any other text is rejected for the number of its
parts, or else for the leftmost part that is no such numeral.

The digits that are written, with or without padding, are a numeral of the
number (`numeral_digits`), and so a version can be read back from its text
(`parse_text`).
-/

namespace Deduction

namespace Version

/-- The value of a decimal digit. -/
def digitValue (c : Char) : Nat :=
  c.toNat - '0'.toNat

/-- **A run of decimal digits** and the number that it stands for, the first
digit being the most significant. -/
structure Numeral (cs : List Char) (n : Nat) : Prop where
  nonempty : cs ≠ []
  digits : ∀ c ∈ cs, c.isDigit = true
  value : Nat.ofDigits 10 (cs.map digitValue).reverse = n

/-- A part of a text that is a component of a version. -/
def Sound (part : List Char) : Prop :=
  ∃ n, Numeral part n ∧ n < 2 ^ 32

/-- **Why a part is no component.**  Whether it is a numeral is asked before its
size. -/
inductive Unsound (part : List Char) : VersionFault → Prop where
  | notDecimal (h : part = [] ∨ ∃ c ∈ part, c.isDigit = false) :
      Unsound part .notDecimal
  | outOfRange {n : Nat} (h : Numeral part n) (hlarge : 2 ^ 32 ≤ n) :
      Unsound part .outOfRange

/-- **Why a text is no version.**  The number of its parts is wrong, or a part
is unsound and all parts to the left of it are sound. -/
inductive Rejected (text : List Char) : VersionFault → Prop where
  | count (h : text.count '.' ≠ 2) : Rejected text .componentCount
  | leftmost {before after : List (List Char)} {part : List Char}
      {fault : VersionFault}
      (htext : text = ['.'].intercalate (before ++ part :: after))
      (hdots : ∀ p ∈ before ++ part :: after, '.' ∉ p)
      (hcount : (before ++ part :: after).length = 3)
      (hbefore : ∀ p ∈ before, Sound p) (hpart : Unsound part fault) :
      Rejected text fault

/-! ## Numerals -/

/-- A further digit multiplies by ten and adds its value. -/
theorem decimal_append_singleton (cs : List Char) (c : Char) :
    decimal (cs ++ [c]) = 10 * decimal cs + digitValue c := by
  simp [decimal, digitValue]

/-- Reading digits from the left gives the number with these digits. -/
theorem decimal_eq_ofDigits (cs : List Char) :
    decimal cs = Nat.ofDigits 10 (cs.map digitValue).reverse := by
  induction cs using List.reverseRecOn with
  | nil => rfl
  | append_singleton cs c ih =>
    rw [decimal_append_singleton, ih, List.map_append, List.reverse_append,
      List.map_singleton, List.reverse_singleton, List.singleton_append,
      Nat.ofDigits_cons, Nat.add_comm]

/-- A numeral is a text that is not empty and has digits only, and its value is
read from left to right. -/
theorem numeral_iff {cs : List Char} {n : Nat} :
    Numeral cs n ↔
      ¬ (cs = [] ∨ (!cs.all Char.isDigit) = true) ∧ decimal cs = n := by
  rw [decimal_eq_ofDigits]
  constructor
  · rintro ⟨hne, hdigits, hvalue⟩
    simpa [hne, hvalue] using hdigits
  · rintro ⟨hgood, hvalue⟩
    simp only [not_or, Bool.not_eq_true, Bool.not_eq_false',
      List.all_eq_true] at hgood
    exact ⟨hgood.1, hgood.2, hvalue⟩

theorem Numeral.dot_not_mem {cs : List Char} {n : Nat} (h : Numeral cs n) :
    '.' ∉ cs := by
  intro hdot
  have hdigit := h.digits '.' hdot
  revert hdigit
  decide

/-- **A component is read** from a numeral of its value. -/
theorem component_eq_ok_iff {cs : List Char} {u : UInt32} :
    component cs = .ok u ↔ Numeral cs u.toNat := by
  rw [numeral_iff, component]
  by_cases hbad : cs = [] ∨ (!cs.all Char.isDigit) = true
  · rw [if_pos hbad]
    constructor
    · intro h
      cases h
    · intro h
      exact absurd hbad h.1
  · rw [if_neg hbad]
    have hlt : u.toNat < UInt32.size := u.toNat_lt_size
    by_cases hsmall : decimal cs < UInt32.size
    · rw [if_pos hsmall, Except.ok.injEq]
      constructor
      · rintro rfl
        exact ⟨hbad, (UInt32.toNat_ofNat_of_lt' hsmall).symm⟩
      · rintro ⟨-, hvalue⟩
        rw [hvalue, UInt32.ofNat_toNat]
    · rw [if_neg hsmall]
      constructor
      · intro h
        cases h
      · rintro ⟨-, hvalue⟩
        omega

/-- A sound part is one that is read. -/
theorem sound_iff {cs : List Char} : Sound cs ↔ ∃ u, component cs = .ok u := by
  constructor
  · rintro ⟨n, hnumeral, hsmall⟩
    refine ⟨UInt32.ofNat n, component_eq_ok_iff.2 ?_⟩
    rwa [UInt32.toNat_ofNat_of_lt' hsmall]
  · rintro ⟨u, hu⟩
    exact ⟨u.toNat, component_eq_ok_iff.1 hu, u.toNat_lt_size⟩

/-- **A part is refused** for what makes it unsound. -/
theorem component_eq_error_iff {cs : List Char} {fault : VersionFault} :
    component cs = .error fault ↔ Unsound cs fault := by
  have hbad_iff : (cs = [] ∨ (!cs.all Char.isDigit) = true) ↔
      (cs = [] ∨ ∃ c ∈ cs, c.isDigit = false) := by simp
  rw [component]
  by_cases hbad : cs = [] ∨ (!cs.all Char.isDigit) = true
  · rw [if_pos hbad, Except.error.injEq]
    constructor
    · rintro rfl
      exact .notDecimal (hbad_iff.1 hbad)
    · intro h
      cases h with
      | notDecimal => rfl
      | outOfRange hnumeral => exact absurd hbad (numeral_iff.1 hnumeral).1
  · rw [if_neg hbad]
    by_cases hsmall : decimal cs < UInt32.size
    · rw [if_pos hsmall]
      constructor
      · intro h
        cases h
      · intro h
        cases h with
        | notDecimal h => exact absurd (hbad_iff.2 h) hbad
        | outOfRange hnumeral hlarge =>
          have hvalue := (numeral_iff.1 hnumeral).2
          have hsize : UInt32.size = 2 ^ 32 := rfl
          omega
    · rw [if_neg hsmall, Except.error.injEq]
      constructor
      · rintro rfl
        exact .outOfRange (numeral_iff.2 ⟨hbad, rfl⟩) (Nat.le_of_not_lt hsmall)
      · intro h
        cases h with
        | notDecimal h => exact absurd (hbad_iff.2 h) hbad
        | outOfRange => rfl

/-! ## Parts -/

theorem splitDots_dot (cs : List Char) :
    splitDots ('.' :: cs) = [] :: splitDots cs := by
  rw [splitDots, if_pos rfl]

/-- A character other than a dot belongs to the first part. -/
theorem splitDots_cons {c : Char} (hc : c ≠ '.') (cs : List Char) :
    ∃ part parts, splitDots cs = part :: parts ∧
      splitDots (c :: cs) = (c :: part) :: parts := by
  have hne : splitDots cs ≠ [] := by
    cases cs with
    | nil => simp [splitDots]
    | cons d cs =>
      rw [splitDots]
      split
      · simp
      · split <;> simp
  obtain ⟨part, parts, hparts⟩ := List.exists_cons_of_ne_nil hne
  refine ⟨part, parts, hparts, ?_⟩
  rw [splitDots, if_neg hc, hparts]

/-- Splitting at dots is splitting at a separator. -/
theorem splitDots_eq_splitOn (cs : List Char) :
    splitDots cs = cs.splitOn '.' := by
  induction cs with
  | nil => rfl
  | cons c cs ih =>
    rw [List.splitOn] at ih ⊢
    rw [List.splitOnP_cons_eq_if_modifyHead, ← ih]
    by_cases hc : c = '.'
    · rw [hc, splitDots_dot, if_pos (by decide)]
    · obtain ⟨part, parts, hparts, hcons⟩ := splitDots_cons hc cs
      rw [hcons, hparts, if_neg (by simpa using hc), List.modifyHead_cons]

/-- There is one part more than there are dots. -/
theorem length_splitDots (cs : List Char) :
    (splitDots cs).length = cs.count '.' + 1 := by
  induction cs with
  | nil => rfl
  | cons c cs ih =>
    by_cases hc : c = '.'
    · rw [hc, splitDots_dot, List.length_cons, ih, List.count_cons_self]
    · obtain ⟨part, parts, hparts, hcons⟩ := splitDots_cons hc cs
      rw [hcons, List.count_cons_of_ne hc, ← ih, hparts, List.length_cons,
        List.length_cons]

/-- No part contains a dot. -/
theorem dot_not_mem_of_mem_splitDots {cs part : List Char}
    (h : part ∈ splitDots cs) : '.' ∉ part := by
  induction cs generalizing part with
  | nil =>
    obtain rfl : part = [] := by simpa [splitDots] using h
    simp
  | cons c cs ih =>
    by_cases hc : c = '.'
    · rw [hc, splitDots_dot, List.mem_cons] at h
      rcases h with rfl | h
      · simp
      · exact ih h
    · obtain ⟨first, parts, hparts, hcons⟩ := splitDots_cons hc cs
      rw [hparts] at ih
      rw [hcons, List.mem_cons] at h
      rcases h with rfl | h
      · have hfirst : '.' ∉ first := ih List.mem_cons_self
        simp [hfirst, Ne.symm hc]
      · exact ih (List.mem_cons_of_mem _ h)

/-- **The parts of a text** are the lists without dots that make it up. -/
theorem splitDots_eq_iff {cs : List Char} {parts : List (List Char)}
    (hparts : parts ≠ []) :
    splitDots cs = parts ↔
      cs = ['.'].intercalate parts ∧ ∀ part ∈ parts, '.' ∉ part := by
  constructor
  · rintro rfl
    refine ⟨?_, fun part => dot_not_mem_of_mem_splitDots⟩
    rw [splitDots_eq_splitOn, List.intercalate_splitOn]
  · rintro ⟨rfl, hdots⟩
    rw [splitDots_eq_splitOn, List.splitOn_intercalate _ hdots hparts]

/-- **A version is read** from three parts that are components. -/
theorem ofParts_eq_ok_iff {parts : List (List Char)} {v : Version} :
    ofParts parts = .ok v ↔
      ∃ a b c, parts = [a, b, c] ∧ component a = .ok v.major ∧
        component b = .ok v.minor ∧ component c = .ok v.patch := by
  constructor
  · intro h
    unfold ofParts at h
    split at h
    next a b c =>
      split at h
      · cases h
      next hmajor =>
        split at h
        · cases h
        next hminor =>
          split at h
          · cases h
          next hpatch =>
            cases h
            exact ⟨a, b, c, rfl, hmajor, hminor, hpatch⟩
    · cases h
  · rintro ⟨a, b, c, rfl, hmajor, hminor, hpatch⟩
    simp only [ofParts, hmajor, hminor, hpatch]

/-- The first part that is refused decides. -/
theorem ofParts_eq_error_iff {parts : List (List Char)}
    (hcount : parts.length = 3) {fault : VersionFault} :
    ofParts parts = .error fault ↔
      ∃ before part after, parts = before ++ part :: after ∧
        (∀ p ∈ before, ∃ u, component p = .ok u) ∧
        component part = .error fault := by
  obtain ⟨a, b, c, rfl⟩ := List.length_eq_three.1 hcount
  constructor
  · intro h
    cases ha : component a with
    | error _ =>
      simp only [ofParts, ha] at h
      obtain rfl := Except.error.inj h
      exact ⟨[], a, [b, c], rfl, by simp, ha⟩
    | ok major =>
      cases hb : component b with
      | error _ =>
        simp only [ofParts, ha, hb] at h
        obtain rfl := Except.error.inj h
        exact ⟨[a], b, [c], rfl, by simp [ha], hb⟩
      | ok minor =>
        cases hc : component c with
        | error _ =>
          simp only [ofParts, ha, hb, hc] at h
          obtain rfl := Except.error.inj h
          exact ⟨[a, b], c, [], rfl, by simp [ha, hb], hc⟩
        | ok patch =>
          simp only [ofParts, ha, hb, hc] at h
          cases h
  · rintro ⟨before, part, after, hparts, hbefore, hpart⟩
    -- Nothing, one part or two parts stand before the one that is refused.
    rcases before with _ | ⟨_, _ | ⟨_, _ | ⟨_, _⟩⟩⟩ <;>
      simp only [List.nil_append, List.cons_append, List.cons.injEq,
        List.nil_eq, List.append_eq_nil_iff, reduceCtorEq, and_false] at hparts
    · obtain ⟨rfl, rfl⟩ := hparts
      simp only [ofParts, hpart]
    · obtain ⟨rfl, rfl, rfl⟩ := hparts
      obtain ⟨major, hmajor⟩ := hbefore a List.mem_cons_self
      simp only [ofParts, hmajor, hpart]
    · obtain ⟨rfl, rfl, rfl, rfl⟩ := hparts
      obtain ⟨major, hmajor⟩ := hbefore a (by simp)
      obtain ⟨minor, hminor⟩ := hbefore b (by simp)
      simp only [ofParts, hmajor, hminor, hpart]

/-- Any other number of parts is rejected for that. -/
theorem ofParts_of_length_ne {parts : List (List Char)}
    (hcount : parts.length ≠ 3) :
    ofParts parts = .error .componentCount := by
  unfold ofParts
  split
  · exact absurd rfl hcount
  · rfl

/-! ## Reading -/

/-- **What is read as a version**: three numerals of its components. -/
theorem parse_eq_ok_iff {s : String} {v : Version} :
    parse s = .ok v ↔ ∃ a b c, s.toList = ['.'].intercalate [a, b, c] ∧
      Numeral a v.major.toNat ∧ Numeral b v.minor.toNat ∧
      Numeral c v.patch.toNat := by
  have hparse : parse s = .ok v ↔ ofParts (splitDots s.toList) = .ok v := by
    rw [parse]
    split <;> simp [*]
  rw [hparse, ofParts_eq_ok_iff]
  constructor
  · rintro ⟨a, b, c, hsplit, ha, hb, hc⟩
    have htext := ((splitDots_eq_iff (by simp)).1 hsplit).1
    exact ⟨a, b, c, htext, component_eq_ok_iff.1 ha, component_eq_ok_iff.1 hb,
      component_eq_ok_iff.1 hc⟩
  · rintro ⟨a, b, c, htext, ha, hb, hc⟩
    have hdots : ∀ part ∈ [a, b, c], '.' ∉ part := by
      simp [ha.dot_not_mem, hb.dot_not_mem, hc.dot_not_mem]
    exact ⟨a, b, c, (splitDots_eq_iff (by simp)).2 ⟨htext, hdots⟩,
      component_eq_ok_iff.2 ha, component_eq_ok_iff.2 hb,
      component_eq_ok_iff.2 hc⟩

/-- **What is rejected, and why.** -/
theorem ofParts_splitDots_eq_error_iff {cs : List Char} {fault : VersionFault} :
    ofParts (splitDots cs) = .error fault ↔ Rejected cs fault := by
  have hlength := length_splitDots cs
  have hsplit : ∀ {parts : List (List Char)}, parts.length = 3 →
      (splitDots cs = parts ↔
        cs = ['.'].intercalate parts ∧ ∀ part ∈ parts, '.' ∉ part) := by
    intro parts hthree
    exact splitDots_eq_iff (List.ne_nil_of_length_pos (by omega))
  by_cases hcount : (splitDots cs).length = 3
  · rw [ofParts_eq_error_iff hcount]
    constructor
    · rintro ⟨before, part, after, hparts, hbefore, hpart⟩
      rw [hparts] at hcount
      obtain ⟨htext, hdots⟩ := (hsplit hcount).1 hparts
      exact .leftmost htext hdots hcount
        (fun p hp => sound_iff.2 (hbefore p hp))
        (component_eq_error_iff.1 hpart)
    · intro h
      cases h with
      | count hne => omega
      | @leftmost before after part _ htext hdots hthree hbefore hpart =>
        exact ⟨before, part, after, (hsplit hthree).2 ⟨htext, hdots⟩,
          fun p hp => sound_iff.1 (hbefore p hp),
          component_eq_error_iff.2 hpart⟩
  · rw [ofParts_of_length_ne hcount, Except.error.injEq]
    constructor
    · rintro rfl
      exact .count (by omega)
    · intro h
      cases h with
      | count => rfl
      | leftmost htext hdots hthree =>
        rw [(hsplit hthree).2 ⟨htext, hdots⟩] at hcount
        exact absurd hthree hcount

/-- **A text is rejected** with itself and the first fault that it has. -/
theorem parse_eq_error_iff {s : String} {e : VersionError} :
    parse s = .error e ↔ e.text = s ∧ Rejected s.toList e.fault := by
  obtain ⟨text, fault⟩ := e
  rw [← ofParts_splitDots_eq_error_iff, parse]
  split <;> simp [*, eq_comm]

/-! ## Writing -/

/-- Zeros in front do not count. -/
theorem decimal_replicate_append (k : Nat) (cs : List Char) :
    decimal (List.replicate k '0' ++ cs) = decimal cs := by
  induction k with
  | zero => rfl
  | succ k ih => exact ih

/-- **What is written is a numeral** of the number, whatever the width. -/
theorem numeral_digits (width n : Nat) : Numeral (digits width n) n := by
  refine ⟨?_, ?_, ?_⟩
  · simp [digits, List.leftpad, Nat.toDigits_ne_nil]
  · intro c hc
    rcases List.mem_append.1 hc with hzero | hdigit
    · rw [List.eq_of_mem_replicate hzero]
      decide
    · exact Nat.isDigit_of_mem_toDigits (by decide) (by decide) hdigit
  · rw [← decimal_eq_ofDigits, digits, List.leftpad, decimal_replicate_append]
    exact Nat.ofDigitChars_ten_toDigits

/-- **A version is read back** from its text. -/
theorem parse_text (v : Version) : parse v.text = .ok v := by
  refine parse_eq_ok_iff.2 ⟨_, _, _, ?_, numeral_digits 1 v.major.toNat,
    numeral_digits 2 v.minor.toNat, numeral_digits 2 v.patch.toNat⟩
  simp [text, List.intercalate]

/-- Different versions are displayed differently. -/
theorem text_injective : Function.Injective text := by
  intro v w h
  have hparse : parse v.text = .ok w := h ▸ parse_text w
  exact Except.ok.inj ((parse_text v).symm.trans hparse)

/-- **Versions are read exactly.**

* A text is read as a version exactly when it is made of three numerals, the
  values of which are the components; and there is such a version as long as the
  values are below `2 ^ 32`.
* A version is read back from its text.
* Two texts are read as the same version exactly when the versions read have the
  same text.
* A text is rejected for the number of its parts, or else for the leftmost part
  that is no numeral below `2 ^ 32`; and then first for not being a numeral. -/
theorem version_text_exact :
    (∀ (s : String) (v : Version), parse s = .ok v ↔
      ∃ a b c, s.toList = ['.'].intercalate [a, b, c] ∧
        Numeral a v.major.toNat ∧ Numeral b v.minor.toNat ∧
        Numeral c v.patch.toNat) ∧
    (∀ s : String, (∃ v, parse s = .ok v) ↔
      ∃ a b c, s.toList = ['.'].intercalate [a, b, c] ∧
        Sound a ∧ Sound b ∧ Sound c) ∧
    (∀ v : Version, parse v.text = .ok v) ∧
    (∀ (s t : String) (v w : Version), parse s = .ok v → parse t = .ok w →
      (parse s = parse t ↔ v.text = w.text)) ∧
    ∀ (s : String) (e : VersionError), parse s = .error e ↔
      e.text = s ∧ Rejected s.toList e.fault := by
  refine ⟨fun s v => parse_eq_ok_iff, ?_, parse_text, ?_,
    fun s e => parse_eq_error_iff⟩
  · intro s
    constructor
    · rintro ⟨v, hv⟩
      obtain ⟨a, b, c, htext, ha, hb, hc⟩ := parse_eq_ok_iff.1 hv
      exact ⟨a, b, c, htext, ⟨_, ha, v.major.toNat_lt_size⟩,
        ⟨_, hb, v.minor.toNat_lt_size⟩, ⟨_, hc, v.patch.toNat_lt_size⟩⟩
    · rintro ⟨a, b, c, htext, ha, hb, hc⟩
      obtain ⟨major, hmajor⟩ := sound_iff.1 ha
      obtain ⟨minor, hminor⟩ := sound_iff.1 hb
      obtain ⟨patch, hpatch⟩ := sound_iff.1 hc
      exact ⟨⟨major, minor, patch⟩, parse_eq_ok_iff.2 ⟨a, b, c, htext,
        component_eq_ok_iff.1 hmajor, component_eq_ok_iff.1 hminor,
        component_eq_ok_iff.1 hpatch⟩⟩
  · intro s t v w hs ht
    rw [hs, ht, Except.ok.injEq, text_injective.eq_iff]

/-- Whatever the zeros in front, `10` and `1` are told apart. -/
theorem padded_versions_told_apart :
    parse "7.10.3" = .ok ⟨7, 10, 3⟩ ∧ parse "007.1.003" = .ok ⟨7, 1, 3⟩ ∧
      text ⟨7, 10, 3⟩ ≠ text ⟨7, 1, 3⟩ := by
  have hshort : parse "7.10.3" = .ok ⟨7, 10, 3⟩ := by decide +kernel
  have hpadded : parse "007.1.003" = .ok ⟨7, 1, 3⟩ := by decide +kernel
  have hiff := version_text_exact.2.2.2.1 _ _ _ _ hshort hpadded
  rw [hshort, hpadded] at hiff
  exact ⟨hshort, hpadded, fun htext => absurd (hiff.2 htext) (by decide)⟩

end Version

end Deduction
