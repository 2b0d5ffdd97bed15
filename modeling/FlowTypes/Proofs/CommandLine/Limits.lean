import FlowTypes.Proofs.CommandLine.Exits

/-!
# Limits of a run

A configuration has passed the checks of its limits and of its paths. The check of the time limit refuses what is zero
or less, and a value that is no number is neither that nor more than zero. So **the time limit of a configuration is
positive, unless the command line holds a value that spells no number** (`Config.ofArguments_generate_limits`); the
limit of output is not negative and both paths are there in any case.

Where the time limit comes from is followed through the reading of the command line: what holds of the defaults and is
kept by each value that stands there, and by each option without a value, holds of what is read
(`Arguments.read_induction`).
-/

namespace FlowTypes

/-! ## Binary fractions -/

namespace Binary64

theorem nearest_ne_notANumber (negative : Bool) (n d : Nat) : nearest negative n d ≠ .notANumber := by
  unfold nearest
  dsimp only
  repeat' split
  all_goals nofun

/-- What is read as a number stays one when it is rounded. -/
theorem ofFraction_eq_notANumber_iff {f : Numeral.Fraction} : ofFraction f = .notANumber ↔ f = .notANumber := by
  constructor
  · intro h
    cases f with
    | notANumber => rfl
    | infinite negative => cases h
    | finite negative digits exponent =>
      unfold ofFraction at h
      dsimp only at h
      split at h
      · cases h
      · split at h
        · cases h
        · split at h <;> exact absurd h (nearest_ne_notANumber _ _ _)
  · rintro rfl
    rfl

end Binary64

/-! ## What stands on a command line -/

namespace Arguments

/-- The value is a word of the command line, or stands behind an equals sign in one. -/
inductive Stands (words : List Text) (value : Text) : Prop
  | alone (h : value ∈ words) : Stands words value
  | behind {name : Text} (h : name ++ '=' :: value ∈ words) : Stands words value

variable {words : List Text} {word : Text}

theorem eq_of_cutAtEquals :
    ∀ {word name value : Text}, cutAtEquals word = (name, some value) → word = name ++ '=' :: value
  | [], _, _, h => by cases h
  | c :: rest, name, value, h => by
    by_cases hc : c = '='
    · subst hc
      cases h
      rfl
    · have hcut : cutAtEquals (c :: rest) = (c :: (cutAtEquals rest).1, (cutAtEquals rest).2) := by
        rw [cutAtEquals]
        exact hc
      rw [hcut, Prod.mk.injEq] at h
      obtain ⟨rfl, hvalue⟩ := h
      rw [List.cons_append, ← eq_of_cutAtEquals (Prod.ext rfl hvalue)]

theorem eq_of_kindOfOther {option : Switch} {value : Text} (h : kindOfOther word = .ok (.named option (some value))) :
    ∃ name, word = name ++ '=' :: value := by
  suffices hcut : (cutAtEquals word).2 = some value from ⟨_, eq_of_cutAtEquals (Prod.ext rfl hcut)⟩
  unfold kindOfOther at h
  dsimp only at h
  repeat' split at h
  all_goals simp only [Except.ok.injEq, Kind.named.injEq, reduceCtorEq] at h
  all_goals exact h.2

theorem eq_of_kindOf {option : Switch} {value : Text} (h : kindOf word = .ok (.named option (some value))) :
    ∃ name, word = name ++ '=' :: value := by
  unfold kindOf at h
  split at h
  · cases h
  · exact eq_of_kindOfOther h
  · cases h

/-- The words are from the command line, and those with a value of their own hold it behind an equals sign. -/
def FromLine (words : List Text) (kinds : List (Text × Kind)) : Prop :=
  ∀ word kind, (word, kind) ∈ kinds → word ∈ words ∧
    ∀ option value, kind = .named option (some value) → ∃ name, word = name ++ '=' :: value

theorem FromLine.of_kindsOf :
    ∀ {words : List Text} {kinds : List (Text × Kind)}, kindsOf words = .ok kinds → FromLine words kinds
  | [], _, h => by
    cases h
    nofun
  | first :: rest, kinds, h => by
    unfold kindsOf at h
    split at h
    · cases h
      intro word kind hmem
      rcases List.mem_cons.mp hmem with heq | hmem
      · cases heq
        exact ⟨List.mem_cons_self, nofun⟩
      · obtain ⟨w, hw, heq⟩ := List.mem_map.mp hmem
        cases heq
        exact ⟨List.mem_cons_of_mem _ hw, nofun⟩
    · obtain ⟨kind, hkind, h⟩ := bind_eq_ok.mp h
      obtain ⟨others, hothers, h⟩ := bind_eq_ok.mp h
      cases h
      intro word kind' hmem
      rcases List.mem_cons.mp hmem with heq | hmem
      · cases heq
        exact ⟨List.mem_cons_self, fun option value h => eq_of_kindOf (h ▸ hkind)⟩
      · exact (of_kindsOf hothers word kind' hmem).imp_left (List.mem_cons_of_mem _)

theorem FromLine.tail {entry : Text × Kind} {rest : List (Text × Kind)} (h : FromLine words (entry :: rest)) :
    FromLine words rest := fun word kind hmem => h word kind (List.mem_cons_of_mem _ hmem)

section
variable {P : Arguments → Prop}

/-- What is kept by every value of the command line and by every option without a value is kept by all the words. -/
theorem take_preserves
    (hvalue : ∀ a option value b, P a → Stands words value → a.withValue option value = .ok b → P b)
    (hflag : ∀ a option b, P a → a.withFlag option = .ok b → P b) {kinds : List (Text × Kind)}
    {a given : Arguments} {left : List Text} (hline : FromLine words kinds) (ha : P a)
    (h : take a left kinds = .ok given) : P given := by
  fun_induction take a left kinds with
  | case1 => exact Except.ok.inj h ▸ ha
  | case3 _ _ _ _ ih => exact ih hline.tail ha h
  | case4 _ _ _ _ ih => exact ih hline.tail ha h
  | case5 _ _ _ _ ih => exact ih hline.tail ha h
  | case7 _ _ _ _ _ _ _ _ hb ih =>
    obtain ⟨hword, hbehind⟩ := hline _ _ List.mem_cons_self
    obtain ⟨name, hname⟩ := hbehind _ _ rfl
    exact ih hline.tail (hvalue _ _ _ _ ha (.behind (hname ▸ hword)) hb) h
  | case10 _ _ _ _ _ _ _ _ hb ih =>
    have hword := (hline _ _ (List.mem_cons_of_mem _ List.mem_cons_self)).1
    exact ih hline.tail.tail (hvalue _ _ _ _ ha (.alone hword) hb) h
  | case13 _ _ _ _ _ _ _ hb ih => exact ih hline.tail (hflag _ _ _ ha hb) h
  | case2 | case6 | case8 | case9 | case11 | case12 | case14 => cases h

/-- **What holds of the defaults, and is kept by every value of the command line and by every option without a value,
holds of what is read.** -/
theorem read_induction {defaults given : Arguments}
    (hvalue : ∀ a option value b, P a → Stands words value → a.withValue option value = .ok b → P b)
    (hflag : ∀ a option b, P a → a.withFlag option = .ok b → P b) (hdefaults : P defaults)
    (h : read defaults words = .ok given) : P given := by
  unfold read at h
  split at h
  · cases h
  · rename_i kinds hkinds
    exact take_preserves hvalue hflag (.of_kindsOf hkinds) hdefaults h

end

/-! ## Time limits -/

/-- The command line holds a value that spells no number. -/
def SpellsNoNumber (words : List Text) : Prop :=
  ∃ value, Stands words value ∧ Numeral.read? value = some .notANumber

theorem timeout_withValue {a b : Arguments} {option : Switch} {value : Text} (h : a.withValue option value = .ok b)
    (hb : b.timeout = .value .notANumber) :
    a.timeout = .value .notANumber ∨ Numeral.read? value = some .notANumber := by
  unfold withValue at h
  split at h
  · obtain rfl := Except.ok.inj h
    cases option
    case timeout => cases hb
    all_goals exact .inl hb
  · cases option with
    | timeout =>
      dsimp only at h
      split at h
      · rename_i fraction hread
        obtain rfl := Except.ok.inj h
        rw [Binary64.ofFraction_eq_notANumber_iff.mp (Given.value.inj hb)] at hread
        exact .inr hread
      · cases h
    | maxOutput =>
      dsimp only at h
      split at h
      · obtain rfl := Except.ok.inj h
        exact .inl hb
      · cases h
    | _ =>
      obtain rfl := Except.ok.inj h
      exact .inl hb

theorem timeout_withFlag {a b : Arguments} {option : Switch} (h : a.withFlag option = .ok b) :
    b.timeout = a.timeout := by
  unfold withFlag at h
  split at h <;> cases h <;> rfl

/-- A time limit that is no number is spelled on the command line. -/
theorem spellsNoNumber_of_read {root : Path} {given : Arguments} (h : read (.standard root) words = .ok given)
    (htimeout : given.timeout = .value .notANumber) : SpellsNoNumber words := by
  refine read_induction (P := fun a => a.timeout = .value .notANumber → SpellsNoNumber words) ?_ ?_ ?_ h htimeout
  · intro a option value b ha hvalue hb hnone
    exact (timeout_withValue hb hnone).elim ha fun hread => ⟨value, hvalue, hread⟩
  · intro a option b ha hb hnone
    exact ha (timeout_withFlag hb ▸ hnone)
  · intro hdefault
    exact absurd (Given.value.inj hdefault) (Binary64.nearest_ne_notANumber _ _ _)

end Arguments

/-! ## Configurations -/

namespace Config

variable {tree : FileTree} {a : Arguments} {c : GenerateConfig}

theorem demand_eq_ok {α : Type} {given : Given α} {option : Unset} {value : α}
    (h : demand given option = .ok value) : given = .value value := by
  cases given with
  | nothing => cases h
  | value b => rw [Except.ok.inj h]

/-- The checks that a configuration has passed. -/
theorem generating_eq_ok (h : generating tree a = .ok c) :
    a.timeout = .value c.timeout ∧ c.timeout.atMostZero = false ∧ 0 ≤ c.maxOutput ∧
      tree.pathExists c.idl = .ok true ∧ tree.pathExists c.generator = .ok true := by
  simp only [generating, bind_eq_ok, mapError_eq_ok, requirePath_eq_ok_iff] at h
  obtain ⟨timeout, htimeout, _, hpositive, maxOutput, -, _, hnonneg, _, -, idl, ⟨-, hidl⟩, _, -, generator,
    ⟨-, hgenerator⟩, hc⟩ := h
  obtain rfl := Except.ok.inj hc
  exact ⟨demand_eq_ok htimeout, checkTimeout_eq_ok_iff.mp hpositive, checkMaxOutput_eq_ok_iff.mp hnonneg, hidl,
    hgenerator⟩

theorem generating_of_ofArguments (h : ofArguments tree a = .ok (.generate c)) : generating tree a = .ok c := by
  simp only [ofArguments, bind_eq_ok] at h
  obtain ⟨-, -, h⟩ := h
  split at h
  · cases h
  · obtain ⟨c', hc, h⟩ := bind_eq_ok.mp h
    obtain rfl := Config.generate.inj (Except.ok.inj h)
    exact hc

/-- **A configuration keeps its limits**: the paths of the definitions and of the generator are there, the limit of
output is not negative, and the time limit is positive unless it is no number, which then is spelled on the command
line. -/
theorem ofArguments_generate_limits {root : Path} {words : List Text}
    (hread : Arguments.read (.standard root) words = .ok a) (h : ofArguments tree a = .ok (.generate c)) :
    tree.pathExists c.idl = .ok true ∧ tree.pathExists c.generator = .ok true ∧ 0 ≤ c.maxOutput ∧
      (c.timeout.positive = true ∨ c.timeout = .notANumber ∧ Arguments.SpellsNoNumber words) := by
  obtain ⟨htimeout, hpositive, hnonneg, hidl, hgenerator⟩ := generating_eq_ok (generating_of_ofArguments h)
  refine ⟨hidl, hgenerator, hnonneg, ?_⟩
  by_cases hnumber : c.timeout = .notANumber
  · exact .inr ⟨hnumber, Arguments.spellsNoNumber_of_read hread (hnumber ▸ htimeout)⟩
  · exact .inl (by rw [Binary64.positive_eq_not_atMostZero hnumber, hpositive, Bool.not_false])

open Command (smallProject)

/-- Words that ask for declarations of the small project within a time. -/
def wordsWithin (seconds : Text) : List Text := ["--idl", "b.idl", "--generator", "flow.sh", "--timeout", seconds]

/-- A thousandth of a second is a time limit. -/
theorem ofArguments_generate_limits_thousandth : ∃ given c,
    Arguments.read (.standard ⟨0, []⟩) (wordsWithin "1e-3") = .ok given ∧
      ofArguments smallProject given = .ok (.generate c) ∧ 0 ≤ c.maxOutput ∧
        (c.timeout.positive = true ∨ c.timeout = .notANumber ∧ Arguments.SpellsNoNumber (wordsWithin "1e-3")) := by
  obtain ⟨given, c, hread, hconfig⟩ : ∃ given c,
      Arguments.read (.standard ⟨0, []⟩) (wordsWithin "1e-3") = .ok given ∧
        ofArguments smallProject given = .ok (.generate c) := ⟨_, _, rfl, rfl⟩
  exact ⟨given, c, hread, hconfig, (ofArguments_generate_limits hread hconfig).2.2⟩

/-- **A time limit that is no number is accepted**, and it is not positive. -/
theorem ofArguments_generate_noNumber : ∃ given c,
    Arguments.read (.standard ⟨0, []⟩) (wordsWithin "nan") = .ok given ∧
      ofArguments smallProject given = .ok (.generate c) ∧ c.timeout.positive = false :=
  ⟨_, _, rfl, rfl, rfl⟩

end Config

end FlowTypes
