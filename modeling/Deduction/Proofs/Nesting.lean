import Deduction.Proofs.Mismatches
import Deduction.Proofs.Verdicts

/-!
# Nested conditional proofs

A policy bounds how deeply conditional proofs may be nested.  Each block stands
at the depth that is the number of its active conditions, and a block is opened
only below the bound, so no block is entered beyond it (`Block.Enters.bounded`).

A conditional proof at the bound is reported, and its lines are not looked at.
To say so of the result, each record of a line is traced: it is the line's
**own**, and stands outside of the lines of a conditional proof, or it was found
in the block that the line opens (`Block.Traceable`).  A conditional proof that
is not opened therefore leaves no record at any of its lines
(`Block.silent_inside`).
-/

namespace Deduction

mutual

/-- How many levels of conditional proofs a reason has. -/
def Reason.nesting : Reason → Nat
  | .conditionalProof _ lines => nesting lines + 1
  | _ => 0

/-- **How deeply conditional proofs are nested** in lines. -/
def nesting : List Line → Nat
  | [] => 0
  | ⟨_, _, some reason⟩ :: rest => max reason.nesting (nesting rest)
  | ⟨_, _, none⟩ :: rest => nesting rest

end

/-! ## Accepted proofs -/

/-- A reason by which a formula follows from others holds no further lines. -/
theorem Follows.nesting_eq {theory : Theory} {known : List Known}
    {conditions : List Formula} {reason : Reason} {B : Formula}
    (h : Follows theory known conditions reason B) : reason.nesting = 0 := by
  cases h <;> rfl

mutual

/-- A reason that justifies a line below some conditions has room for its
conditional proofs. -/
theorem Justified.nesting_le {setting : Setting} :
    ∀ (reason : Reason) (known : List Known) (conditions : List Formula)
      (A : Formula), conditions.length ≤ setting.policy.maxDepth →
    Justified setting known conditions A reason →
    conditions.length + reason.nesting ≤ setting.policy.maxDepth
  | .conditionalProof _ lines, _, conditions, _, _, h => by
    cases h with
    | rule h => cases h
    | @conditionalProof _ _ _ H _ _ _ _ hdepth _ hlines _ _ =>
      have hlength : (conditions ++ [H]).length = conditions.length + 1 :=
        List.length_append
      have hinner := Correct.nesting_le lines _ _ (by omega) hlines
      rw [Reason.nesting]
      omega
  | .add _, _, _, _, hroom, .rule h
  | .rename .., _, _, _, hroom, .rule h
  | .modusPonens .., _, _, _, hroom, .rule h
  | .substFree .., _, _, _, hroom, .rule h
  | .substPredicate .., _, _, _, hroom, .rule h
  | .substFunction .., _, _, _, hroom, .rule h
  | .universal .., _, _, _, hroom, .rule h
  | .existential .., _, _, _, hroom, .rule h => by
    rw [h.nesting_eq]
    exact hroom

/-- **Correct lines are not nested too deeply.** -/
theorem Correct.nesting_le {setting : Setting} :
    ∀ (lines : List Line) (known : List Known) (conditions : List Formula),
    conditions.length ≤ setting.policy.maxDepth →
    Correct setting known conditions lines →
    conditions.length + nesting lines ≤ setting.policy.maxDepth
  | [], _, _, hroom, _ => by simpa [nesting] using hroom
  | ⟨_, none, _⟩ :: _, _, _, _, h => by cases h
  | ⟨_, some _, none⟩ :: _, _, _, _, h => by cases h
  | ⟨_, some A, some reason⟩ :: rest, known, conditions, hroom, h => by
    cases h with
    | cons _ _ _ hjustified hrest =>
      have hreason :=
        Justified.nesting_le reason known conditions A hroom hjustified
      have htail := Correct.nesting_le rest _ conditions hroom hrest
      rw [nesting]
      omega

end

/-! ## Blocks within the bound -/

namespace Block

variable {k k' : Block}

/-- **Within the bound**: the depth of the block is allowed, and it is the
number of the active conditions. -/
structure Bounded (k : Block) : Prop where
  depth_le : k.body.depth ≤ k.body.setting.policy.maxDepth
  conditions : k.body.conditions.length = k.body.depth

/-- A whole proof lies within the bound. -/
theorem bounded_whole (setting : Setting) (location : Location)
    (lines : List Line) :
    (whole setting location lines).Bounded :=
  ⟨Nat.zero_le _, rfl⟩

/-- One conditional proof further in. -/
theorem Opens.bounded (h : k.Opens k') (hk : k.Bounded) : k'.Bounded := by
  obtain ⟨⟨-, -⟩, hopen⟩ := h
  obtain ⟨-, -, -, hroom⟩ := Site.openConditional_eq_ok_iff.1 hopen
  refine ⟨hroom, ?_⟩
  have hconditions := hk.conditions
  simp only [Site.conditionalBlock, Site.conditionalBody, site, Body.site,
    List.length_append, List.length_singleton]
  omega

/-- **No block is entered beyond the bound.** -/
theorem Enters.bounded (h : k.Enters k') (hk : k.Bounded) : k'.Bounded := by
  induction h with
  | refl => exact hk
  | tail _ hopens ih => exact hopens.bounded ih

end Block

/-! ## Records of a line -/

/-- The place that a record is about. -/
def Event.place : Event → Location
  | checking place _ | judged place _ _ | entered place _
  | left place _ | finished place _ => place
  | reported d => d.location

namespace Location

variable {place target : Location}

/-- The target is at no line of a conditional proof that is the reason of the
line at the place. -/
def OutsideLines (place target : Location) : Prop :=
  ∀ m, ¬ ((place.field "reason").item "line" m).Covers target

/-- What lies in another part of the line than its reason is at no line of a
conditional proof. -/
theorem outsideLines_of_part {part : String} (hpart : Plain part)
    (hne : part ≠ "reason") (h : (place.field part).Covers target) :
    place.OutsideLines target := by
  intro m hitem
  have hreason : (place.field "reason").Covers target :=
    (covers_field _ _).trans hitem
  exact hne (covers_field_unique hpart (by decide) h hreason)

/-- The reason itself is at no line of a conditional proof. -/
theorem outsideLines_reason (place : Location) :
    place.OutsideLines (place.field "reason") :=
  fun _ => not_covers_of_item _

theorem outsideLines_self (place : Location) : place.OutsideLines place := by
  intro m hitem
  have hreason : (place.field "reason").Covers place :=
    (covers_field _ _).trans hitem
  exact not_covers_of_field (by decide) hreason

end Location

namespace Block

variable {k k' : Block} {i : Nat} {label : Option String} {f : Formula}
  {reason : Reason} {line : Line} {event : Event}

/-- A conditional proof is opened at the line with the number. -/
inductive OpensAt (k : Block) (i : Nat) : Line → Block → Prop where
  | intro {label : Option String} {f : Formula} {hypothesis : Hypothesis}
      {inner : List Line} {H : Formula}
      (hagrees : k.body.disagreement? f = none)
      (hopen : (k.site i label f).openConditional hypothesis inner = .ok H) :
      OpensAt k i ⟨label, some f, some (.conditionalProof hypothesis inner)⟩
        ((k.site i label f).conditionalBlock hypothesis H inner)

theorem OpensAt.opens (h : k.OpensAt i line k')
    (hline : k.lines[i]? = some line) : k.Opens k' := by
  obtain ⟨hagrees, hopen⟩ := h
  exact .intro (.intro hline hagrees) hopen

/-- What is opened is opened at some line. -/
theorem Opens.exists_opensAt (h : k.Opens k') :
    ∃ i line, k.lines[i]? = some line ∧ k.OpensAt i line k' := by
  obtain ⟨⟨hline, hagrees⟩, hopen⟩ := h
  exact ⟨_, _, hline, .intro hagrees hopen⟩

/-- The lines of a conditional proof are numbered below the reason of the
line. -/
theorem OpensAt.place_eq (h : k.OpensAt i line k') (j : Nat) :
    k'.body.place j = ((k.body.place i).field "reason").item "line" j := by
  obtain ⟨-, -⟩ := h
  rfl

/-- At one line no more than one block is opened. -/
theorem OpensAt.unique {k'' : Block} (h : k.OpensAt i line k')
    (h' : k.OpensAt i line k'') : k' = k'' := by
  obtain ⟨-, hopen⟩ := h
  cases h' with
  | intro _ hopen' =>
    obtain rfl := Except.ok.inj (hopen.symm.trans hopen')
    rfl

/-- **A record of the line itself.** -/
structure Own (k : Block) (i : Nat) (line : Line) (event : Event) : Prop where
  covers : (k.body.place i).Covers event.place
  outside : ∀ hypothesis inner,
    line.reason = some (.conditionalProof hypothesis inner) →
    (k.body.place i).OutsideLines event.place
  entered : ∀ place depth, event = .entered place depth →
    ∃ k', k.OpensAt i line k' ∧ k'.body.location = place ∧ k'.body.depth = depth

/-- **Where a record of a line comes from**: it is the line's own, or it is
found in the block that the line opens. -/
def Traceable (k : Block) (i : Nat) (line : Line) (event : Event) : Prop :=
  k.Own i line event ∨ ∃ k', k.OpensAt i line k' ∧ event ∈ k'.check.log

/-- What is reported at a part of the line other than its reason. -/
theorem own_part {d : Diagnostic} {part : String} (hpart : Location.Plain part)
    (hne : part ≠ "reason")
    (h : ((k.body.place i).field part).Covers d.location) :
    k.Own i line (.reported d) where
  covers := (Location.covers_field _ _).trans h
  outside := fun _ _ _ => Location.outsideLines_of_part hpart hne h
  entered := by simp

/-- What the reason of the line is objected to. -/
theorem own_objection {d : Diagnostic}
    (h : (k.site i label f).Objects reason d) :
    k.Own i ⟨label, some f, some reason⟩ (.reported d) := by
  rcases h.place with ⟨path, hpath, -⟩ | ⟨hcovers, houtside⟩
  · have hformula : ((k.body.place i).field "formula").Covers d.location := by
      rw [hpath]
      exact (Location.Covers.refl _).follow path
    exact own_part (by decide) (by decide) hformula
  · refine ⟨(Location.covers_field _ _).trans hcovers, ?_, by simp⟩
    intro hypothesis inner hreason
    obtain rfl := Option.some.inj hreason
    exact houtside rfl

/-- Complaints about the label of a line are its own. -/
theorem own_label (h : event ∈ (k.body.checkLabel (k.before i) i label).log) :
    k.Own i line event := by
  rcases k.body.checkLabel_found (k.before i) i label with hnone | ⟨d, hd⟩
  · rw [hnone] at h
    cases h
  · have hmem : d ∈ (k.body.checkLabel (k.before i) i label).errors := by
      rw [hd]
      exact List.mem_cons_self
    have hlabel : ((k.body.place i).field "label").Covers d.location := by
      rw [(Body.mem_checkLabel hmem).2]
      exact .refl _
    rw [hd] at h
    obtain rfl := List.mem_singleton.1 h
    exact own_part (by decide) (by decide) hlabel

/-- The records of a reason. -/
theorem traceable_judge (hagrees : k.body.disagreement? f = none) :
    ∀ event ∈ (judge (k.site i label f) reason).found.log,
      k.Traceable i ⟨label, some f, some reason⟩ event := by
  refine Site.judge_induct (P := fun found => ∀ event ∈ found.log,
    k.Traceable i ⟨label, some f, some reason⟩ event) ?_ ?_ ?_ ?_
  · simp
  · intro a b ha hb event hevent
    exact (List.mem_append.1 hevent).elim (ha event) (hb event)
  · intro d hobjects event hevent
    obtain rfl := List.mem_singleton.1 hevent
    exact .inl (own_objection hobjects)
  · rintro hypothesis inner H rfl hopen
    have hopens : k.OpensAt i
        ⟨label, some f, some (.conditionalProof hypothesis inner)⟩
        ((k.site i label f).conditionalBlock hypothesis H inner) :=
      .intro hagrees hopen
    have hcovers : (k.body.place i).Covers (k.site i label f).reasonPlace :=
      Location.covers_field _ _
    have houtside := (k.body.place i).outsideLines_reason
    refine ⟨?_, fun event hevent => .inr ⟨_, hopens, hevent⟩, ?_⟩
    · intro event hevent
      obtain rfl := List.mem_singleton.1 hevent
      refine .inl ⟨hcovers, fun _ _ _ => houtside, ?_⟩
      intro place depth heq
      cases heq
      exact ⟨_, hopens, rfl, rfl⟩
    · intro event hevent
      obtain rfl := List.mem_singleton.1 hevent
      exact .inl ⟨hcovers, fun _ _ _ => houtside, by simp⟩

/-- **Every record of a line is traceable.** -/
theorem traceable_checkLine (h : event ∈ (k.checkLine i line).log) :
    k.Traceable i line event := by
  obtain ⟨label, formula, reason⟩ := line
  cases formula with
  | none =>
    rw [checkLine, checkLines, checkLines, Findings.append_empty] at h
    obtain rfl := List.mem_singleton.1 h
    exact .inl (own_part (by decide) (by decide) (.refl _))
  | some f =>
    cases reason with
    | none =>
      rw [checkLine, checkLines, checkLines, Findings.append_empty] at h
      obtain rfl := List.mem_singleton.1 h
      exact .inl ⟨Location.covers_field _ _, by simp, by simp⟩
    | some reason =>
      cases hagrees : k.body.disagreement? f with
      | some offence =>
        rw [checkLine, checkLines, checkLines, Findings.append_empty,
          hagrees] at h
        rcases List.mem_append.1 h with h | h
        · exact .inl (own_label h)
        · obtain rfl := List.mem_singleton.1 h
          exact .inl (own_part (by decide) (by decide) (.refl _))
      | none =>
        rw [checkLine_judged hagrees] at h
        rcases List.mem_append.1 h with h | h
        · exact .inl (own_label h)
        · rcases List.mem_append.1 h with h | h
          · exact traceable_judge hagrees event h
          · obtain rfl := List.mem_singleton.1 h
            exact .inl ⟨.refl _,
              fun _ _ _ => Location.outsideLines_self _, by simp⟩

/-- Every record is one of a line. -/
theorem exists_checkLine (h : event ∈ k.check.log) :
    ∃ i line, k.lines[i]? = some line ∧ event ∈ (k.checkLine i line).log := by
  refine check_induct (P := fun found => event ∈ found.log →
    ∃ i line, k.lines[i]? = some line ∧ event ∈ (k.checkLine i line).log)
    ?_ ?_ ?_ h
  · simp
  · intro a b ha hb hevent
    exact (List.mem_append.1 hevent).elim ha hb
  · intro i line hline hevent
    exact ⟨i, line, hline, hevent⟩

/-- **Records stand at their lines** or below them. -/
theorem covers_of_mem_checkLine (k : Block) :
    ∀ {i : Nat} {line : Line} {event : Event},
    k.lines[i]? = some line → event ∈ (k.checkLine i line).log →
      (k.body.place i).Covers event.place := by
  induction k using induct with
  | step k ih =>
    intro i line event hline hevent
    rcases traceable_checkLine hevent with hown | ⟨k', hopens, hinner⟩
    · exact hown.covers
    · obtain ⟨j, inner, hj, hmem⟩ := exists_checkLine hinner
      have hcovers := ih k' (hopens.opens hline) hj hmem
      have hplace : (k.body.place i).Covers (k'.body.place j) := by
        rw [hopens.place_eq]
        exact (Location.covers_field _ _).item "line" j
      exact hplace.trans hcovers

/-- What stands at a line or below it was left by that line. -/
theorem mem_checkLine_of_covers (hline : k.lines[i]? = some line)
    (hevent : event ∈ k.check.log)
    (hcovers : (k.body.place i).Covers event.place) :
    event ∈ (k.checkLine i line).log := by
  obtain ⟨j, other, hother, hmem⟩ := exists_checkLine hevent
  obtain rfl : i = j :=
    k.body.covers_place_unique hcovers (covers_of_mem_checkLine k hother hmem)
  obtain rfl : line = other := Option.some.inj (hline.symm.trans hother)
  exact hmem

/-- **A record that a conditional proof is entered** tells of a block that is
entered. -/
theorem exists_of_entered {place : Location} {depth : Nat} (k : Block)
    (h : .entered place depth ∈ k.check.log) :
    ∃ k', k.Enters k' ∧ k'.body.location = place ∧ k'.body.depth = depth := by
  induction k using induct with
  | step k ih =>
    obtain ⟨i, line, hline, hmem⟩ := exists_checkLine h
    rcases traceable_checkLine hmem with hown | ⟨k', hopens, hinner⟩
    · obtain ⟨k', hopens, hplace, hdepth⟩ := hown.entered place depth rfl
      exact ⟨k', .single (hopens.opens hline), hplace, hdepth⟩
    · obtain ⟨k'', henters, hblock⟩ := ih k' (hopens.opens hline) hinner
      exact ⟨k'', .head (hopens.opens hline) henters, hblock⟩

/-- **A conditional proof that is not opened leaves no record at its lines.** -/
theorem silent_inside {s : Site} {hypothesis : Hypothesis} {inner : List Line}
    (henters : k.Enters k')
    (hjudges : k'.Judges s (.conditionalProof hypothesis inner))
    (hclosed : ∀ H, s.openConditional hypothesis inner ≠ .ok H)
    (hevent : event ∈ k.check.log) :
    s.location.OutsideLines event.place := by
  induction henters using Relation.ReflTransGen.head_induction_on with
  | refl =>
    obtain ⟨hline, -⟩ := hjudges
    intro m hitem
    have hcovers : (k'.body.place _).Covers event.place :=
      ((Location.covers_field _ _).item "line" m).trans hitem
    have hmem := mem_checkLine_of_covers hline hevent hcovers
    rcases traceable_checkLine hmem with hown | ⟨_, hopens, -⟩
    · exact hown.outside _ _ rfl m hitem
    · cases hopens with
      | intro _ hopen => exact hclosed _ hopen
  | @head k next hopens henters ih =>
    intro m hitem
    -- The conditional proof lies in a line of the next block, and so do its own
    -- lines.
    obtain ⟨j, hj⟩ : ∃ j, (next.body.place j).Covers s.location := by
      obtain ⟨hline, -⟩ := hjudges
      exact (Enters.lineAt henters (.here hline)).exists_item
    have hnext : (next.body.place j).Covers event.place :=
      hj.trans (((Location.covers_field _ _).item "line" m).trans hitem)
    obtain ⟨i, line, hline, hat⟩ := hopens.exists_opensAt
    rw [hat.place_eq] at hnext
    have hcovers : (k.body.place i).Covers event.place :=
      ((Location.covers_field _ _).item "line" j).trans hnext
    have hmem := mem_checkLine_of_covers hline hevent hcovers
    rcases traceable_checkLine hmem with hown | ⟨other, hother, hinner⟩
    · cases hat with
      | intro _ _ => exact hown.outside _ _ rfl j hnext
    · obtain rfl := hat.unique hother
      exact ih hinner m hitem

/-- The records of a reason are part of the log of its block. -/
theorem Judges.log_subset {s : Site} (h : k.Judges s reason) :
    (judge s reason).found.log ⊆ k.check.log := by
  obtain ⟨hline, hagrees⟩ := h
  obtain ⟨first, rest, hcheck⟩ := check_split hline
  intro event hevent
  rw [hcheck, checkLine_judged hagrees]
  simp only [Findings.log_append, List.mem_append]
  exact .inr (.inl (.inr (.inl hevent)))

end Block

/-! ## Whole proofs -/

/-- The diagnostics are those that are recorded. -/
theorem Findings.Logged.reported_mem_iff {n : Nat} {found : Findings}
    {d : Diagnostic} (h : Logged n found) :
    .reported d ∈ found.log ↔ d ∈ found.errors := by
  rw [← h.2, Log.reports, List.mem_filterMap]
  constructor
  · intro hmem
    exact ⟨_, hmem, rfl⟩
  · rintro ⟨event, hmem, hevent⟩
    cases event with
    | reported e =>
      obtain rfl := Option.some.inj hevent
      exact hmem
    | _ => cases hevent

section

variable {setting : Setting} {location place : Location} {proposition : Formula}
  {lines : List Line} {line : Line} {event : Event} {d : Diagnostic}

/-- A record about the whole proof or about the formula of a line of it, outside
of all reasons. -/
structure AboutWhole (location : Location) (event : Event) : Prop where
  place : event.place = location ∨
    ∃ n, ((location.item "line" n).field "formula").Covers event.place
  not_entered : ∀ place depth, event ≠ .entered place depth

/-- The check of the last line makes records about the proof as a whole. -/
theorem aboutWhole_checkLast
    (h : event ∈ (checkLast location proposition lines).log) :
    AboutWhole location event := by
  rw [checkLast] at h
  split at h
  · obtain rfl := List.mem_singleton.1 h
    exact ⟨.inl rfl, by simp⟩
  · split at h
    · cases h
    next path _ =>
      obtain rfl := List.mem_singleton.1 h
      exact ⟨.inr ⟨_, (Location.Covers.refl _).follow path⟩, by simp⟩

/-- The reason of a line lies in the reason of a line of the whole proof. -/
theorem LineAt.exists_reason (h : LineAt location lines place line) :
    ∃ i, ((location.item "line" i).field "reason").Covers
      (place.field "reason") := by
  cases h with
  | here => exact ⟨_, .refl _⟩
  | inside _ hinner =>
    exact ⟨_, hinner.covers.trans (Location.covers_field _ _)⟩

/-- The log of a check has the records of the lines, and records about the
whole. -/
theorem mem_log_checkProof
    (h : event ∈ (checkProof setting location proposition lines).log) :
    event ∈ (Block.whole setting location lines).check.log ∨
      AboutWhole location event := by
  rw [checkProof] at h
  split at h
  · simp only [Findings.log_append, Findings.log_note, List.mem_append,
      List.mem_singleton] at h
    rcases h with (rfl | hlines | hlast) | rfl
    · exact .inr ⟨.inl rfl, by simp⟩
    · exact .inl hlines
    · exact .inr (aboutWhole_checkLast hlast)
    · exact .inr ⟨.inl rfl, by simp⟩
  · simp only [Findings.log_append, Findings.log_note, List.append_nil,
      List.mem_singleton] at h
    subst h
    exact .inr ⟨.inl rfl, by simp⟩

/-- **A conditional proof that is not opened leaves nothing of its lines** in
the log of the whole check. -/
theorem outsideLines_of_mem_log {k : Block} {s : Site} {hypothesis : Hypothesis}
    {inner : List Line}
    (henters : (Block.whole setting location lines).Enters k)
    (hjudges : k.Judges s (.conditionalProof hypothesis inner))
    (hclosed : ∀ H, s.openConditional hypothesis inner ≠ .ok H)
    (hevent : event ∈ (checkProof setting location proposition lines).log) :
    s.location.OutsideLines event.place := by
  rcases mem_log_checkProof hevent with hlines | hother
  · exact Block.silent_inside henters hjudges hclosed hlines
  · intro m hitem
    obtain ⟨hline, -⟩ := hjudges
    obtain ⟨i, hi⟩ := (henters.lineAt (.here hline)).exists_reason
    have hreason :
        ((location.item "line" i).field "reason").Covers event.place :=
      hi.trans ((Location.covers_field _ _).trans hitem)
    have hline : (location.item "line" i).Covers event.place :=
      (Location.covers_field _ _).trans hreason
    rcases hother.place with hplace | ⟨n, hformula⟩
    · rw [hplace] at hline
      exact Location.not_covers_of_item i hline
    · obtain rfl : i = n :=
        Location.covers_item_unique hline
          ((Location.covers_field _ _).trans hformula)
      have hsame :=
        Location.covers_field_unique (by decide) (by decide) hreason hformula
      exact absurd hsame (by decide)

/-- What a reason that is judged reports is an error of the whole check. -/
theorem mem_errors_of_judged {k : Block} {s : Site} {reason : Reason}
    (haccepts : setting.policy.acceptsProofs = true)
    (henters : (Block.whole setting location lines).Enters k)
    (hjudges : k.Judges s reason)
    (h : .reported d ∈ (judge s reason).found.log) :
    d ∈ (checkProof setting location proposition lines).errors := by
  have hrecorded := henters.log_subset (hjudges.log_subset h)
  have hlogged := logged_checkLines lines (wholeBody setting location) 0 []
  have hlines := hlogged.reported_mem_iff.1 hrecorded
  rw [checkProof, if_pos haccepts]
  simp only [Findings.errors_append, List.mem_append]
  exact .inl (.inr (.inl hlines))

/-- Every error of a check is recorded. -/
theorem reported_mem_of_mem_errors
    (haccepts : setting.policy.acceptsProofs = true)
    (hd : d ∈ (checkProof setting location proposition lines).errors) :
    .reported d ∈ (checkProof setting location proposition lines).log := by
  have hlogged :=
    (logged_checkLines lines (wholeBody setting location) 0 []).append
      (logged_checkLast 0 location proposition lines)
  rw [checkProof, if_pos haccepts] at hd ⊢
  simp only [Findings.errors_append, Findings.errors_note, List.nil_append,
    List.append_nil] at hd
  have hmem := hlogged.reported_mem_iff.2 hd
  exact List.mem_append_left _ (List.mem_append_right _ hmem)

end

namespace Site

variable {s : Site} {hypothesis : Hypothesis} {inner : List Line}

/-- The complaint that a conditional proof is nested too deeply. -/
def tooDeep (s : Site) : Diagnostic where
  defect := .nestedTooDeeply
  location := s.reasonPlace
  detail := some ("at most " ++ s.setting.policy.maxDepth.repr ++ " levels")

/-- **At the bound nothing is opened.** -/
theorem openConditional_eq_tooDeep
    (hallowed : s.setting.policy.conditionalMinimum.isSome = true)
    (hformula : hypothesis.formula.isSome = true) (hinner : inner ≠ [])
    (hdepth : s.depth = s.setting.policy.maxDepth) :
    s.openConditional hypothesis inner = .error s.tooDeep := by
  obtain ⟨H, hH⟩ := Option.isSome_iff_exists.1 hformula
  have hlines : (!inner.isEmpty) = true := by simpa using hinner
  have hroom : decide (s.depth < s.setting.policy.maxDepth) = false := by
    simp [hdepth]
  rw [openConditional, hallowed, hH]
  simp only [hlines, hroom]
  rfl

end Site

/-- **Conditional proofs are nested within the bound.**  Where proofs and
conditional proofs are accepted:

* Every list of lines that is checked stands at a depth within the bound, below
  as many conditions; and every record that a conditional proof was entered
  tells of such lines.
* A conditional proof at the bound, with a formula assumed and with lines, is
  reported as nested too deeply, and that is all its reason leaves.  No
  diagnostic and no record of the check is at any of its lines or below them.
* An accepted proof does not nest conditional proofs beyond the bound. -/
theorem nesting_within_bound (setting : Setting) (location : Location)
    (proposition : Formula) (lines : List Line)
    (haccepts : setting.policy.acceptsProofs = true)
    (hallowed : setting.policy.conditionalMinimum.isSome = true) :
    (∀ k, (Block.whole setting location lines).Enters k →
      k.body.depth ≤ setting.policy.maxDepth ∧
        k.body.conditions.length = k.body.depth) ∧
    (∀ place depth,
      .entered place depth ∈
        (checkProof setting location proposition lines).log →
        ∃ k, (Block.whole setting location lines).Enters k ∧
          k.body.location = place ∧ k.body.depth = depth) ∧
    (∀ k s hypothesis inner, (Block.whole setting location lines).Enters k →
      k.Judges s (.conditionalProof hypothesis inner) →
      s.depth = setting.policy.maxDepth →
      hypothesis.formula.isSome = true → inner ≠ [] →
        judge s (.conditionalProof hypothesis inner) =
          ⟨.report s.tooDeep, false⟩ ∧
        s.tooDeep ∈ (checkProof setting location proposition lines).errors ∧
        (∀ d ∈ (checkProof setting location proposition lines).errors,
          ∀ m, ¬ (s.reasonPlace.item "line" m).Covers d.location) ∧
        ∀ event ∈ (checkProof setting location proposition lines).log,
          ∀ m, ¬ (s.reasonPlace.item "line" m).Covers event.place) ∧
    ((checkProof setting location proposition lines).errors = [] →
      nesting lines ≤ setting.policy.maxDepth) := by
  refine ⟨?_, ?_, ?_, ?_⟩
  · intro k henters
    have hbounded :=
      henters.bounded (Block.bounded_whole setting location lines)
    have hdepth := hbounded.depth_le
    rw [henters.setting_eq] at hdepth
    exact ⟨hdepth, hbounded.conditions⟩
  · intro place depth hentered
    rcases mem_log_checkProof hentered with hlines | hother
    · exact Block.exists_of_entered _ hlines
    · exact absurd rfl (hother.not_entered place depth)
  · intro k s hypothesis inner henters hjudges hdepth hformula hinner
    have hsetting : s.setting = setting :=
      hjudges.setting_eq.trans henters.setting_eq
    have hopen : s.openConditional hypothesis inner = .error s.tooDeep :=
      Site.openConditional_eq_tooDeep (by rw [hsetting]; exact hallowed)
        hformula hinner (by rw [hsetting]; exact hdepth)
    have hjudge : judge s (.conditionalProof hypothesis inner) =
        ⟨.report s.tooDeep, false⟩ := by
      rw [judge, hopen]
    have hclosed : ∀ H, s.openConditional hypothesis inner ≠ .ok H := by
      intro H hH
      rw [hopen] at hH
      cases hH
    have hsilent :
        ∀ event ∈ (checkProof setting location proposition lines).log,
          s.location.OutsideLines event.place :=
      fun event hevent => outsideLines_of_mem_log henters hjudges hclosed hevent
    refine ⟨hjudge, ?_, ?_, hsilent⟩
    · apply mem_errors_of_judged haccepts henters hjudges
      rw [hjudge]
      exact List.mem_cons_self
    · intro d hd
      exact hsilent _ (reported_mem_of_mem_errors haccepts hd)
  · intro haccepted
    obtain ⟨-, hbody, -⟩ := checkProof_errors_eq_nil_iff.1 haccepted
    have hcorrect := checkLines_wholeBody_errors_eq_nil_iff.1 hbody
    have hle := hcorrect.nesting_le lines [] [] (Nat.zero_le _)
    simpa using hle

namespace SecondLevel

open Formula (letter)

/-- Conditional proofs are allowed, but not inside of each other. -/
def logic : Setting where
  policy := .accepting [.basic, .conditional] (some .conditional) 1
  rules := .allAt .conditional
  theory := {}

/-- Obtains `K → K`. -/
def reason : Reason :=
  .conditionalProof ⟨some "k", some (letter "K")⟩
    [⟨none, some (letter "K"), some (.add (some "k"))⟩]

/-- Proves `K → K`. -/
def identity : List Line :=
  [⟨none, some ((letter "K").implies (letter "K")), some reason⟩]

/-- Proves `H → (K → K)`, with the proof of `K → K` inside. -/
def nested : List Line :=
  [⟨none, some ((letter "H").implies ((letter "K").implies (letter "K"))),
    some (.conditionalProof ⟨some "h", some (letter "H")⟩ identity)⟩]

/-- The lines of the outer conditional proof. -/
def block : Block :=
  ((Block.whole logic ⟨"m", "p"⟩ nested).site 0 none
    ((letter "H").implies ((letter "K").implies (letter "K")))).conditionalBlock
      ⟨some "h", some (letter "H")⟩ (letter "H") identity

/-- The line with the inner conditional proof. -/
def site : Site :=
  block.site 0 none ((letter "K").implies (letter "K"))

theorem enters_block : (Block.whole logic ⟨"m", "p"⟩ nested).Enters block :=
  .single (.intro (.intro rfl rfl) rfl)

theorem judges_reason : block.Judges site reason :=
  .intro rfl (by decide +kernel)

/-- The second level is one too many, and the first alone is accepted. -/
theorem reported_at_second_level :
    (judge site reason = ⟨.report site.tooDeep, false⟩ ∧
      site.tooDeep ∈ (checkProof logic ⟨"m", "p"⟩
        ((letter "H").implies ((letter "K").implies (letter "K")))
        nested).errors ∧
      ∀ event ∈ (checkProof logic ⟨"m", "p"⟩
        ((letter "H").implies ((letter "K").implies (letter "K"))) nested).log,
        ∀ m, ¬ (site.reasonPlace.item "line" m).Covers event.place) ∧
    (checkProof logic ⟨"m", "p"⟩ ((letter "K").implies (letter "K"))
      identity).errors = [] ∧
      nesting identity ≤ 1 := by
  have haccepted :
      (checkProof logic ⟨"m", "p"⟩ ((letter "K").implies (letter "K"))
        identity).errors = [] := by decide +kernel
  obtain ⟨-, -, hbound, -⟩ := nesting_within_bound logic ⟨"m", "p"⟩
    ((letter "H").implies ((letter "K").implies (letter "K"))) nested rfl rfl
  obtain ⟨-, -, -, hnesting⟩ := nesting_within_bound logic ⟨"m", "p"⟩
    ((letter "K").implies (letter "K")) identity rfl rfl
  obtain ⟨hjudge, hreported, -, hsilent⟩ :=
    hbound block site _ _ enters_block judges_reason rfl rfl (by simp)
  exact ⟨⟨hjudge, hreported, hsilent⟩, haccepted, hnesting haccepted⟩

end SecondLevel

end Deduction
