import Deduction.Location

/-!
# Which places lie in which

A place **covers** those whose position goes on after it.  Positions are texts,
so what can be told about places has to be read off the text: the fields of a
place are told apart by their names up to the next dot (`covers_field_unique`),
the items of an indexed field by their numbers up to the bracket
(`covers_item_unique`).

Places are reached in **steps**, each to a field or to an item.  If their names
are free of dots and brackets, a step can be read off what it adds to a
position, and so can a whole walk (`walk_injective`).  In particular the
subformulas below a place are told apart by their paths (`follow_injective`).
-/

namespace Deduction

namespace Location

/-- One step further into a place: to a field, or to an item of an indexed
field. -/
inductive Step where
  | field (name : String)
  | item (name : String) (index : Nat)
  deriving DecidableEq

/-- The name that a step goes by. -/
def Step.name : Step → String
  | field name => name
  | item name _ => name

/-- What a step adds to a position. -/
def Step.segment : Step → String
  | field name => name
  | item name index => name ++ "[" ++ index.repr ++ "]"

/-- The place that a step leads to. -/
def step (place : Location) : Step → Location
  | .field name => place.field name
  | .item name index => place.item name index

/-- The place that steps lead to, one after the other. -/
def walk (place : Location) (steps : List Step) : Location :=
  steps.foldl step place

variable {place inner other : Location} {name : String}

/-- The inner place is the place itself, or its position goes on after a dot.
The empty position covers the whole module. -/
def Covers (place inner : Location) : Prop :=
  inner.moduleName = place.moduleName ∧
    (place.position = "" ∨ inner.position = place.position ∨
      ∃ rest, inner.position = place.position ++ "." ++ rest)

theorem Covers.refl (place : Location) : place.Covers place :=
  ⟨rfl, .inr (.inl rfl)⟩

/-- A place covers its fields. -/
theorem covers_field (place : Location) (name : String) :
    place.Covers (place.field name) := by
  refine ⟨rfl, ?_⟩
  by_cases hroot : place.position = ""
  · exact .inl hroot
  · exact .inr (.inr ⟨name, if_neg hroot⟩)

/-- Only the empty position covers the empty position. -/
theorem Covers.position_eq_empty (h : place.Covers inner)
    (hinner : inner.position = "") : place.position = "" := by
  obtain ⟨-, hroot | heq | ⟨rest, heq⟩⟩ := h
  · exact hroot
  · rw [← heq, hinner]
  · rw [hinner] at heq
    exact (String.append_eq_empty_iff.1
      (String.append_eq_empty_iff.1 heq.symm).1).1

/-- What lies in an inner place lies in the outer one. -/
theorem Covers.trans (h : place.Covers inner) (h' : inner.Covers other) :
    place.Covers other := by
  refine ⟨h'.1.trans h.1, ?_⟩
  by_cases hroot : place.position = ""
  · exact .inl hroot
  · have hinner : inner.position ≠ "" :=
      fun hempty => hroot (h.position_eq_empty hempty)
    refine .inr ?_
    -- Two positions that go on after one another make one that goes on after
    -- the first.
    obtain ⟨rest, hrest⟩ | heq := (h'.2.resolve_left hinner).symm
    · obtain ⟨start, hstart⟩ | heq := (h.2.resolve_left hroot).symm
      · exact .inr ⟨start ++ "." ++ rest,
          by simp only [hrest, hstart, String.append_assoc]⟩
      · exact .inr ⟨rest, by rw [hrest, heq]⟩
    · rw [heq]
      exact h.2.resolve_left hroot

theorem Covers.field (h : place.Covers inner) (name : String) :
    place.Covers (inner.field name) :=
  h.trans (covers_field inner name)

theorem Covers.item (h : place.Covers inner) (name : String) (index : Nat) :
    place.Covers (inner.item name index) :=
  h.field _

theorem Covers.follow (h : place.Covers inner) (path : List Nat) :
    place.Covers (inner.follow path) := by
  induction path generalizing inner with
  | nil => exact h
  | cons index path ih => exact ih (h.item "element" index)

/-- No place covers one with a shorter position. -/
theorem Covers.length_le (h : place.Covers inner) :
    place.position.length ≤ inner.position.length := by
  obtain ⟨-, hroot | heq | ⟨rest, heq⟩⟩ := h
  · simp [hroot]
  · exact Nat.le_of_eq (by rw [heq])
  · rw [heq, String.length_append, String.length_append]
    omega

/-- No field covers the place that it is a field of. -/
theorem not_covers_of_field (hname : name ≠ "") :
    ¬ (place.field name).Covers place := by
  intro h
  have hle := h.length_le
  have hpos : 0 < name.length := by
    rw [Nat.pos_iff_ne_zero]
    exact fun hzero => hname (String.length_eq_zero_iff.1 hzero)
  by_cases hroot : place.position = ""
  · have hposition : (place.field name).position = name := if_pos hroot
    rw [hposition, hroot, String.length_empty] at hle
    omega
  · have hposition :
        (place.field name).position = place.position ++ "." ++ name :=
      if_neg hroot
    rw [hposition, String.length_append, String.length_append] at hle
    omega

/-! ## Named places -/

/-- A name that is told apart in a position: there is something of it, and it
has no dot. -/
def Plain (name : String) : Prop :=
  name ≠ "" ∧ '.' ∉ name.toList

instance (name : String) : Decidable (Plain name) :=
  inferInstanceAs (Decidable (_ ∧ _))

/-- What the position of a field begins with, up to the name. -/
theorem field_position (place : Location) :
    ∃ start : List Char,
      ∀ name, (place.field name).position.toList = start ++ name.toList := by
  by_cases hroot : place.position = ""
  · exact ⟨[], fun name => by simp [field, hroot]⟩
  · exact ⟨place.position.toList ++ ['.'], fun name => by simp [field, hroot]⟩

/-- What a field covers goes on after the name, with a dot if at all. -/
theorem Covers.exists_rest {start : List Char} {name : String}
    (hname : Plain name) (hstart : place.position.toList = start ++ name.toList)
    (h : place.Covers inner) :
    ∃ rest, inner.position.toList = start ++ (name.toList ++ rest) ∧
      (rest = [] ∨ ∃ more, rest = '.' :: more) := by
  obtain ⟨-, hroot | heq | ⟨rest, heq⟩⟩ := h
  · rw [hroot] at hstart
    have hempty : name.toList = [] := (List.append_eq_nil_iff.1 hstart.symm).2
    exact absurd (String.toList_eq_nil_iff.1 hempty) hname.1
  · exact ⟨[], by rw [heq, hstart, List.append_nil], .inl rfl⟩
  · exact ⟨'.' :: rest.toList, by simp [heq, hstart], .inr ⟨_, rfl⟩⟩

/-- A name ends where a mark stands that it does not have. -/
theorem takeWhile_name {mark : Char} {name : String} {rest : List Char}
    (hname : mark ∉ name.toList)
    (hrest : rest = [] ∨ ∃ more, rest = mark :: more) :
    (name.toList ++ rest).takeWhile (fun c => c ≠ mark) = name.toList := by
  have hall : ∀ c ∈ name.toList, decide (c ≠ mark) = true := by
    intro c hc
    have hne : c ≠ mark := fun heq => hname (heq ▸ hc)
    exact decide_eq_true hne
  rw [List.takeWhile_append_of_pos hall]
  rcases hrest with rfl | ⟨more, rfl⟩
  · simp
  · rw [List.takeWhile_cons_of_neg (by simp), List.append_nil]

/-- **Named places are apart.** -/
theorem covers_field_unique {a b : String} (ha : Plain a) (hb : Plain b)
    (hfirst : (place.field a).Covers inner)
    (hsecond : (place.field b).Covers inner) : a = b := by
  obtain ⟨start, hstart⟩ := field_position place
  obtain ⟨rest, hrest, hdot⟩ := hfirst.exists_rest ha (hstart a)
  obtain ⟨rest', hrest', hdot'⟩ := hsecond.exists_rest hb (hstart b)
  have hsame : a.toList ++ rest = b.toList ++ rest' :=
    List.append_cancel_left (hrest.symm.trans hrest')
  have hnames : a.toList = b.toList := by
    rw [← takeWhile_name ha.2 hdot, hsame, takeWhile_name hb.2 hdot']
  exact String.toList_inj.1 hnames

/-! ## Numbered places -/

/-- The digits of a number end where the bracket stands. -/
theorem takeWhile_isDigit_repr (n : Nat) (rest : List Char) :
    (n.repr.toList ++ ']' :: rest).takeWhile Char.isDigit =
      Nat.toDigits 10 n := by
  have hdigits : ∀ c ∈ Nat.toDigits 10 n, c.isDigit := by
    intro c hc
    exact Nat.isDigit_of_mem_toDigits (by decide) (by decide) hc
  rw [Nat.toList_repr, List.takeWhile_append_of_pos hdigits,
    List.takeWhile_cons_of_neg (by decide), List.append_nil]

/-- A number can be read off up to the bracket. -/
theorem repr_append_inj {i j : Nat} {rest rest' : List Char}
    (h : i.repr.toList ++ ']' :: rest = j.repr.toList ++ ']' :: rest') :
    i = j := by
  have hdigits : Nat.toDigits 10 i = Nat.toDigits 10 j := by
    rw [← takeWhile_isDigit_repr i rest, h, takeWhile_isDigit_repr]
  calc i
      = Nat.ofDigitChars 10 (Nat.toDigits 10 i) 0 :=
        Nat.ofDigitChars_ten_toDigits.symm
    _ = Nat.ofDigitChars 10 (Nat.toDigits 10 j) 0 := by rw [hdigits]
    _ = j := Nat.ofDigitChars_ten_toDigits

/-- What the position of a numbered place begins with, up to the number. -/
theorem item_position (place : Location) (name : String) :
    ∃ start : List Char, ∀ index, (place.item name index).position.toList =
      start ++ (index.repr.toList ++ [']']) := by
  by_cases hroot : place.position = ""
  · exact ⟨name.toList ++ ['['], fun index => by simp [item, field, hroot]⟩
  · exact ⟨place.position.toList ++ ['.'] ++ name.toList ++ ['['],
      fun index => by simp [item, field, hroot]⟩

/-- What a numbered place covers goes on after the number. -/
theorem Covers.exists_position {start : List Char} {index : Nat}
    (hstart : place.position.toList = start ++ (index.repr.toList ++ [']']))
    (h : place.Covers inner) :
    ∃ rest, inner.position.toList =
      start ++ (index.repr.toList ++ ']' :: rest) := by
  obtain ⟨-, hroot | heq | ⟨rest, heq⟩⟩ := h
  · rw [hroot] at hstart
    simp at hstart
  · exact ⟨[], by rw [heq, hstart]⟩
  · exact ⟨'.' :: rest.toList, by simp [heq, hstart]⟩

/-- **Numbered places are apart.** -/
theorem covers_item_unique {i j : Nat} (hi : (place.item name i).Covers inner)
    (hj : (place.item name j).Covers inner) : i = j := by
  obtain ⟨start, hstart⟩ := item_position place name
  obtain ⟨rest, hrest⟩ := hi.exists_position (hstart i)
  obtain ⟨rest', hrest'⟩ := hj.exists_position (hstart j)
  rw [hrest] at hrest'
  exact repr_append_inj (List.append_cancel_left hrest')

/-- An item has a plain name when the indexed field has. -/
theorem plain_item (hname : Plain name) (index : Nat) :
    Plain (name ++ "[" ++ index.repr ++ "]") := by
  have hdigits : '.' ∉ Nat.toDigits 10 index := by
    intro hdot
    have hdigit := Nat.isDigit_of_mem_toDigits (by decide) (by decide) hdot
    revert hdigit
    decide
  refine ⟨fun hempty => ?_, ?_⟩
  · simp [← String.toList_eq_nil_iff] at hempty
  · simp [hname.2, hdigits]

/-- An item of an indexed field and another field are apart. -/
theorem covers_item_field {index : Nat} {other : String} (hname : Plain name)
    (hother : Plain other) (hne : '[' ∉ other.toList)
    (hitem : (place.item name index).Covers inner) :
    ¬ (place.field other).Covers inner := by
  intro hfield
  have heq := covers_field_unique (plain_item hname index) hother hitem hfield
  rw [← heq] at hne
  simp at hne

/-! ## Steps -/

/-- No item covers the place that it is an item of. -/
theorem not_covers_of_item (index : Nat) :
    ¬ (place.item name index).Covers place := by
  refine not_covers_of_field fun hempty => ?_
  simp [← String.toList_eq_nil_iff] at hempty

/-- A name that a step is told by: it is plain and free of brackets. -/
def Clear (name : String) : Prop :=
  Plain name ∧ '[' ∉ name.toList ∧ ']' ∉ name.toList

instance (name : String) : Decidable (Clear name) :=
  inferInstanceAs (Decidable (_ ∧ _))

/-- A step adds its segment after a dot, as a field would. -/
theorem step_eq_field (place : Location) (s : Step) :
    place.step s = place.field s.segment := by
  cases s <;> rfl

theorem walk_cons (place : Location) (s : Step) (steps : List Step) :
    place.walk (s :: steps) = (place.step s).walk steps := rfl

/-- A walk may be made in two parts. -/
theorem walk_append (place : Location) (steps steps' : List Step) :
    place.walk (steps ++ steps') = (place.walk steps).walk steps' :=
  List.foldl_append

/-- A path is followed by steps to elements. -/
theorem follow_eq_walk (place : Location) (path : List Nat) :
    place.follow path = place.walk (path.map (.item "element")) := by
  rw [follow, walk, List.foldl_map]
  rfl

theorem moduleName_walk (place : Location) (steps : List Step) :
    (place.walk steps).moduleName = place.moduleName := by
  induction steps generalizing place with
  | nil => rfl
  | cons s steps ih => rw [walk_cons, ih, step_eq_field, field]

/-- Whatever is reached from an inner place lies in the outer one. -/
theorem Covers.walk (h : place.Covers inner) (steps : List Step) :
    place.Covers (inner.walk steps) := by
  induction steps generalizing inner with
  | nil => exact h
  | cons s steps ih =>
    rw [walk_cons, step_eq_field]
    exact ih (h.field _)

/-- What a step adds is plain if its name is clear. -/
theorem plain_segment {s : Step} (hs : Clear s.name) : Plain s.segment := by
  cases s with
  | field name => exact hs.1
  | item name index => exact plain_item hs.1 index

/-- **A step is read off its segment.** -/
theorem segment_inj {s t : Step} (hs : Clear s.name) (ht : Clear t.name)
    (h : s.segment = t.segment) : s = t := by
  -- A bracket tells an item from a field, and in items it ends the name.
  have hbracket : ∀ {a b : String} {j : Nat}, Clear a →
      a ≠ b ++ "[" ++ j.repr ++ "]" := by
    rintro a b j ha rfl
    simp [Clear] at ha
  cases s with
  | field a =>
    cases t with
    | field b => rw [show a = b from h]
    | item b j => exact absurd h (hbracket hs)
  | item a i =>
    cases t with
    | field b => exact absurd h.symm (hbracket ht)
    | item b j =>
      have ha : Clear a := hs
      have hb : Clear b := ht
      have hchars : a.toList ++ '[' :: (i.repr.toList ++ [']']) =
          b.toList ++ '[' :: (j.repr.toList ++ [']']) := by
        simpa [Step.segment] using congrArg String.toList h
      have hnames : a.toList = b.toList := by
        rw [← takeWhile_name ha.2.1 (.inr ⟨_, rfl⟩), hchars,
          takeWhile_name hb.2.1 (.inr ⟨_, rfl⟩)]
      obtain rfl := String.toList_inj.1 hnames
      have hnumbers := (List.cons.inj (List.append_cancel_left hchars)).2
      rw [repr_append_inj hnumbers]

/-- A step leads away from a place, and no further steps lead back. -/
theorem walk_cons_ne (place : Location) {s : Step} (hs : Clear s.name)
    (steps : List Step) :
    place.walk (s :: steps) ≠ place := by
  intro heq
  have hcovers : (place.field s.segment).Covers (place.walk (s :: steps)) := by
    rw [walk_cons, step_eq_field]
    exact (Covers.refl _).walk steps
  rw [heq] at hcovers
  exact not_covers_of_field (plain_segment hs).1 hcovers

/-- **Steps are read off the place that they lead to.** -/
theorem walk_injective (place : Location) {steps steps' : List Step}
    (hsteps : ∀ s ∈ steps, Clear s.name) (hsteps' : ∀ s ∈ steps', Clear s.name)
    (heq : place.walk steps = place.walk steps') : steps = steps' := by
  induction steps generalizing place steps' with
  | nil =>
    cases steps' with
    | nil => rfl
    | cons t steps' =>
      exact absurd heq.symm
        (place.walk_cons_ne (hsteps' t List.mem_cons_self) steps')
  | cons s steps ih =>
    have hs := hsteps s List.mem_cons_self
    cases steps' with
    | nil => exact absurd heq (place.walk_cons_ne hs steps)
    | cons t steps' =>
      have ht := hsteps' t List.mem_cons_self
      have hfirst :
          (place.field s.segment).Covers (place.walk (s :: steps)) := by
        rw [walk_cons, step_eq_field]
        exact (Covers.refl _).walk steps
      have hsecond :
          (place.field t.segment).Covers (place.walk (s :: steps)) := by
        rw [heq, walk_cons, step_eq_field]
        exact (Covers.refl _).walk steps'
      obtain rfl := segment_inj hs ht
        (covers_field_unique (plain_segment hs) (plain_segment ht)
          hfirst hsecond)
      rw [ih (place.step s) (fun r hr => hsteps r (List.mem_cons_of_mem _ hr))
        (fun r hr => hsteps' r (List.mem_cons_of_mem _ hr)) heq]

/-- Places of one module are told apart by their texts. -/
theorem eq_of_text_eq {first second : Location}
    (hmodule : first.moduleName = second.moduleName)
    (h : first.text = second.text) : first = second := by
  obtain ⟨moduleName, position⟩ := first
  obtain ⟨moduleName', position'⟩ := second
  obtain rfl : moduleName = moduleName' := hmodule
  have hposition : position = position' :=
    (String.append_right_inj (moduleName ++ ":")).1 h
  rw [hposition]

/-- **Steps are read off the text of a location.** -/
theorem walk_text_injective (place : Location) {steps steps' : List Step}
    (hsteps : ∀ s ∈ steps, Clear s.name) (hsteps' : ∀ s ∈ steps', Clear s.name)
    (heq : (place.walk steps).text = (place.walk steps').text) :
    steps = steps' := by
  refine place.walk_injective hsteps hsteps' (eq_of_text_eq ?_ heq)
  rw [moduleName_walk, moduleName_walk]

/-- The steps of a path through a formula have a clear name. -/
theorem clear_of_mem_path {path : List Nat} {s : Step}
    (hs : s ∈ path.map (.item "element")) :
    Clear s.name := by
  obtain ⟨index, -, rfl⟩ := List.mem_map.1 hs
  have helement : Clear "element" := by decide
  exact helement

/-- **Subformulas are apart**, also by the text of their locations. -/
theorem follow_text_injective (place : Location) :
    Function.Injective fun path => (place.follow path).text := by
  intro path path' heq
  simp only [follow_eq_walk] at heq
  have hsteps := place.walk_text_injective (fun _ => clear_of_mem_path)
    (fun _ => clear_of_mem_path) heq
  exact (List.map_inj_right fun i j hij => (Step.item.inj hij).2).1 hsteps

/-- Different paths lead to different places. -/
theorem follow_injective (place : Location) : Function.Injective place.follow :=
  fun _ _ heq => place.follow_text_injective (congrArg text heq)

end Location

end Deduction
