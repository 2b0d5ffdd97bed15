import FlowTypes.Proofs.Anchor.Scanning

/-!
# The language of a pattern

Most patterns look at the characters that they match and at nothing else: whether a text is a match does not depend on
what stands around it (`Regex.looksAround`). The matches of such a pattern are its language, `Regex.Matches`, which is
said by the structure of the pattern alone, without places, rounds and what comes after.

* What a run goes past is in the language (`Regex.sound_run`).
* Where a text of the language stands, a run gets through, to the end of this text or of another one
  (`Regex.complete_run`).

So **a text that holds a match of such a pattern has a match itself** (`Anchor.occursIn_of_match`).

The rounds of a repetition are followed through the texts that they go past. A round that moves nowhere adds nothing, so
each text counted is not empty, and there are no more of them than characters.
-/

namespace FlowTypes

open Pattern (Place Run Member)

namespace Regex

/-- The pattern looks at the ends of the text, or at what stands beside a place. -/
def looksAround : Regex → Bool
  | .textStart | .textEnd | .wordBoundary => true
  | .seq first second | .either first second => first.looksAround || second.looksAround
  | .star body | .plus body | .optional body => body.looksAround
  | .empty | .char _ | .set _ _ => false

/-- The texts that a pattern matches wherever they stand. -/
inductive Matches : Regex → Text → Prop
  | empty : Matches .empty []
  | char (c : Char) : Matches (.char c) [c]
  | set {negated : Bool} {members : List Member} {c : Char} (h : (members.any (·.holds c) != negated) = true) :
      Matches (.set negated members) [c]
  | seq {first second : Regex} {s t : Text} (hs : Matches first s) (ht : Matches second t) :
      Matches (.seq first second) (s ++ t)
  | left {first second : Regex} {s : Text} (hs : Matches first s) : Matches (.either first second) s
  | right {first second : Regex} {s : Text} (hs : Matches second s) : Matches (.either first second) s
  | done {body : Regex} : Matches (.star body) []
  | round {body : Regex} {s t : Text} (hne : s ≠ []) (hs : Matches body s) (ht : Matches (.star body) t) :
      Matches (.star body) (s ++ t)
  | plus {body : Regex} {s t : Text} (hs : Matches body s) (ht : Matches (.star body) t) :
      Matches (.plus body) (s ++ t)
  | without {body : Regex} : Matches (.optional body) []
  | within {body : Regex} {s : Text} (hs : Matches body s) : Matches (.optional body) s

end Regex

/-! ## What a run goes past -/

namespace Pattern

variable {body : Run} {L : Text → Prop}

/-- A run that gets through goes past a text of the language. -/
def Run.Sound (run : Run) (L : Text → Prop) : Prop :=
  ∀ p k q, run p k = some q → ∃ s rest, p.rest = s ++ rest ∧ L s ∧ k (p.past s) = some q

theorem Place.rest_past {p : Place} {s rest : Text} (h : p.rest = s ++ rest) : (p.past s).rest = rest := by
  show p.rest.drop s.length = rest
  rw [h, List.drop_left]

/-- One text after another. -/
theorem exists_past_append {p : Place} {s rest : Text} {P : Text → Prop} {Q : Place → Prop} (hp : p.rest = s ++ rest)
    (h : ∃ t rest', (p.past s).rest = t ++ rest' ∧ P t ∧ Q ((p.past s).past t)) :
    ∃ t rest', p.rest = (s ++ t) ++ rest' ∧ P t ∧ Q (p.past (s ++ t)) := by
  obtain ⟨t, rest', hrest, ht, hQ⟩ := h
  rw [Place.rest_past hp] at hrest
  exact ⟨t, rest', by rw [hp, hrest, List.append_assoc], ht, by rwa [Place.past_append]⟩

theorem sound_rounds {b : Regex} (hbody : body.Sound b.Matches) (n : Nat) :
    Run.Sound (rounds body n) (Regex.star b).Matches := by
  -- no further round
  have hstop : ∀ {p : Place} {k : Place → Option Place} {q : Place}, k p = some q →
      ∃ s rest, p.rest = s ++ rest ∧ (Regex.star b).Matches s ∧ k (p.past s) = some q :=
    fun {p k q} h => ⟨[], p.rest, rfl, .done, by rwa [Place.past_nil]⟩
  induction n with
  | zero => exact fun p k q h => hstop h
  | succ n ih =>
    intro p k q h
    rw [rounds] at h
    split at h
    · rename_i q' hround
      obtain rfl := Option.some.inj h
      obtain ⟨s, rest, hp, hs, hafter⟩ := hbody p _ q' hround
      by_cases hempty : s = []
      · subst hempty
        rw [Place.past_nil, if_pos rfl] at hafter
        exact hstop hafter
      · have hmoved : (p.past s).position ≠ p.position := by
          have hpos := List.length_pos_iff.mpr hempty
          show p.position + s.length ≠ p.position
          omega
        rw [if_neg hmoved] at hafter
        obtain ⟨t, rest', hrest, ht, hk⟩ :=
          exists_past_append (Q := fun p => k p = some q') hp (ih _ k q' hafter)
        exact ⟨s ++ t, rest', hrest, .round hempty hs ht, hk⟩
    · exact hstop h

end Pattern

namespace Regex

/-- **A run of a pattern that does not look around goes past a text of its language.** -/
theorem sound_run (bound : Nat) {r : Regex} (hr : r.looksAround = false) : Run.Sound (r.run bound) r.Matches := by
  induction r with
  | empty => exact fun p k q h => ⟨[], p.rest, rfl, .empty, by rwa [Place.past_nil]⟩
  | char d =>
    intro p k q h
    simp only [run] at h
    split at h
    · rename_i c rest hrest
      split at h
      · rename_i hc
        subst hc
        exact ⟨[c], rest, hrest, .char c, by rwa [Place.past_singleton hrest]⟩
      · cases h
    · cases h
  | set negated members =>
    intro p k q h
    simp only [run] at h
    split at h
    · rename_i c rest hrest
      split at h
      · rename_i hc
        exact ⟨[c], rest, hrest, .set hc, by rwa [Place.past_singleton hrest]⟩
      · cases h
    · cases h
  | seq first second ihfirst ihsecond =>
    intro p k q h
    simp only [looksAround, Bool.or_eq_false_iff] at hr
    obtain ⟨s, rest, hp, hs, h⟩ := ihfirst hr.1 p _ q h
    obtain ⟨t, rest', hrest, ht, hk⟩ :=
      Pattern.exists_past_append (Q := fun p => k p = some q) hp (ihsecond hr.2 _ k q h)
    exact ⟨s ++ t, rest', hrest, .seq hs ht, hk⟩
  | either first second ihfirst ihsecond =>
    intro p k q h
    simp only [looksAround, Bool.or_eq_false_iff] at hr
    simp only [run] at h
    split at h
    · rename_i q' hfirst
      obtain ⟨s, rest, hp, hs, hk⟩ := ihfirst hr.1 p k q (hfirst.trans h)
      exact ⟨s, rest, hp, .left hs, hk⟩
    · obtain ⟨s, rest, hp, hs, hk⟩ := ihsecond hr.2 p k q h
      exact ⟨s, rest, hp, .right hs, hk⟩
  | star body ih => exact Pattern.sound_rounds (ih hr) bound
  | plus body ih =>
    intro p k q h
    obtain ⟨s, rest, hp, hs, h⟩ := ih hr p _ q h
    obtain ⟨t, rest', hrest, ht, hk⟩ :=
      Pattern.exists_past_append (Q := fun p => k p = some q) hp (Pattern.sound_rounds (ih hr) bound _ k q h)
    exact ⟨s ++ t, rest', hrest, .plus hs ht, hk⟩
  | optional body ih =>
    intro p k q h
    simp only [run] at h
    split at h
    · rename_i q' hbody
      obtain ⟨s, rest, hp, hs, hk⟩ := ih hr p k q (hbody.trans h)
      exact ⟨s, rest, hp, .within hs, hk⟩
    · exact ⟨[], p.rest, rfl, .without, by rwa [Place.past_nil]⟩
  | textStart | textEnd | wordBoundary => cases hr

end Regex

/-! ## Where a run gets through -/

namespace Pattern

/-- Where a text of the language stands that is not longer than the bound, and the match can go on behind it, a run gets
through. -/
def Run.Complete (run : Run) (L : Text → Prop) (bound : Nat) : Prop :=
  ∀ p k s rest, p.rest = s ++ rest → L s → s.length ≤ bound → (k (p.past s)).isSome → (run p k).isSome

/-- A repetition gets through where the match can go on at once. -/
theorem isSome_rounds_of_isSome (body : Run) (n : Nat) {p : Place} {k : Place → Option Place} (hk : (k p).isSome) :
    (rounds body n p k).isSome := by
  cases n with
  | zero => exact hk
  | succ n =>
    rw [rounds]
    split
    · rfl
    · exact hk

theorem complete_rounds {body : Run} {b : Regex} {bound : Nat} (hbody : body.Complete b.Matches bound) {s : Text}
    (hs : (Regex.star b).Matches s) (hbound : s.length ≤ bound) (n : Nat) (hn : s.length ≤ n) (p : Place)
    (k : Place → Option Place) (rest : Text) (hp : p.rest = s ++ rest) (hk : (k (p.past s)).isSome) :
    (rounds body n p k).isSome := by
  generalize hstar : Regex.star b = r at hs
  induction hs generalizing n p with
  | done => exact isSome_rounds_of_isSome body n (by rwa [Place.past_nil] at hk)
  | @round body' s t hne hs ht _ ih =>
    cases hstar
    rw [List.length_append] at hn hbound
    have hpos := List.length_pos_iff.mpr hne
    cases n with
    | zero => omega
    | succ n =>
      rw [List.append_assoc] at hp
      have hmoved : (p.past s).position ≠ p.position := by
        show p.position + s.length ≠ p.position
        omega
      have hround : (body p fun q => if q.position = p.position then k q else rounds body n q k).isSome := by
        refine hbody p _ s (t ++ rest) hp hs (by omega) ?_
        rw [if_neg hmoved]
        refine ih (by omega) n (by omega) (p.past s) (Place.rest_past hp) ?_ rfl
        rwa [← Place.past_append]
      rw [rounds]
      split
      · rfl
      · rename_i hnone
        rw [hnone] at hround
        cases hround
  | _ => cases hstar

end Pattern

namespace Regex

/-- **A run gets through where a text of the language stands**, if the match can go on behind it. -/
theorem complete_run (bound : Nat) (r : Regex) : Run.Complete (r.run bound) r.Matches bound := by
  induction r with
  | empty =>
    intro p k s rest hp hs hbound hk
    cases hs
    rwa [Place.past_nil] at hk
  | char d =>
    intro p k s rest hp hs hbound hk
    cases hs
    have hrest : p.rest = d :: rest := hp
    simp only [run, hrest, if_true]
    rwa [Place.past_singleton hrest] at hk
  | set negated members =>
    intro p k s rest hp hs hbound hk
    cases hs with
    | @set _ _ c hc =>
      have hrest : p.rest = c :: rest := hp
      simp only [run, hrest, hc, if_true]
      rwa [Place.past_singleton hrest] at hk
  | seq first second ihfirst ihsecond =>
    intro p k s rest hp hs hbound hk
    cases hs with
    | @seq _ _ s t hs ht =>
      rw [List.append_assoc] at hp
      rw [List.length_append] at hbound
      refine ihfirst p _ s (t ++ rest) hp hs (by omega) ?_
      refine ihsecond (p.past s) k t rest (Place.rest_past hp) ht (by omega) ?_
      rwa [← Place.past_append]
  | either first second ihfirst ihsecond =>
    intro p k s rest hp hs hbound hk
    simp only [run]
    split
    · rfl
    · rename_i hnone
      cases hs with
      | left hs =>
        have hfirst := ihfirst p k s rest hp hs hbound hk
        rw [hnone] at hfirst
        cases hfirst
      | right hs => exact ihsecond p k s rest hp hs hbound hk
  | star body ih =>
    intro p k s rest hp hs hbound hk
    exact Pattern.complete_rounds ih hs hbound bound hbound p k rest hp hk
  | plus body ih =>
    intro p k s rest hp hs hbound hk
    cases hs with
    | @plus _ s t hs ht =>
      rw [List.append_assoc] at hp
      rw [List.length_append] at hbound
      refine ih p _ s (t ++ rest) hp hs (by omega) ?_
      refine Pattern.complete_rounds ih ht (by omega) bound (by omega) (p.past s) k rest (Place.rest_past hp) ?_
      rwa [← Place.past_append]
  | optional body ih =>
    intro p k s rest hp hs hbound hk
    simp only [run]
    split
    · rfl
    · rename_i hnone
      cases hs with
      | without => rwa [Place.past_nil] at hk
      | within hs =>
        have hbody := ih p k s rest hp hs hbound hk
        rw [hnone] at hbody
        cases hbody
  | textStart | textEnd | wordBoundary =>
    intro p k s rest hp hs
    cases hs

end Regex

/-! ## Matches of anchors -/

namespace Anchor

/-- The anchor is a pattern that looks around. -/
def looksAround : Anchor → Bool
  | literal _ => false
  | pattern _ r => r.looksAround

variable {a : Anchor} {t : Text} {position : Nat} {moving : Bool} {spans : List Span}

/-- Every span of a scan is a match. -/
theorem Scans.exists_matchAt? (h : a.Scans t position moving spans) {s : Span} (hs : s ∈ spans) :
    ∃ moving, a.matchAt? t moving s.start = some (s.stop - s.start) := by
  induction h with
  | done => cases hs
  | @found _ k n _ _ _ _ _ hmatch _ ih =>
    rcases List.mem_cons.mp hs with rfl | hs
    · have hlength : k + n - k = n := by omega
      exact ⟨_, hlength ▸ hmatch⟩
    · exact ih hs

/-- Where a match starts, the anchor occurs. -/
theorem occursIn_of_matchAt? (hbound : position ≤ t.length) (h : (a.matchAt? t false position).isSome) :
    a.occursIn t = true := by
  have hscans := a.scans_spans t
  unfold occursIn
  rw [Bool.not_eq_true', List.isEmpty_eq_false_iff]
  intro hnil
  have hspans : a.spans t = [] := by
    rw [spans, Cuts.spansFrom, hnil]
    rfl
  rw [hspans] at hscans
  cases hscans with
  | done hnone =>
    have hfree := hnone position (Nat.zero_le _) hbound
    rw [Bool.false_and] at hfree
    rw [hfree] at h
    cases h

/-- A match of a pattern that does not look around is in its language. -/
theorem matches_of_matchAt? {source : Text} {r : Regex} (hr : r.looksAround = false) {n : Nat}
    (h : (pattern source r).matchAt? t moving position = some n) :
    ∃ s rest, t.drop position = s ++ rest ∧ s.length = n ∧ r.Matches s := by
  obtain ⟨q, hrun, rfl⟩ := Option.map_eq_some_iff.mp h
  obtain ⟨s, rest, hrest, hs, hend⟩ := r.sound_run t.length hr _ _ q hrun
  refine ⟨s, rest, hrest, ?_, hs⟩
  split at hend
  · cases hend
  · obtain rfl := Option.some.inj hend
    show s.length = position + s.length - position
    omega

/-- A text that holds a text of the language has a match. -/
theorem occursIn_of_matches {source : Text} {r : Regex} {s content : Text} (hs : r.Matches s) (hin : s <:+: content) :
    (pattern source r).occursIn content = true := by
  obtain ⟨u, v, rfl⟩ := hin
  have hbound : u.length ≤ (u ++ s ++ v).length := by
    rw [List.length_append, List.length_append]
    omega
  refine occursIn_of_matchAt? hbound ?_
  have hrest : (Pattern.Place.within (u ++ s ++ v) u.length).rest = s ++ v := by
    show (u ++ s ++ v).drop u.length = s ++ v
    rw [List.append_assoc, List.drop_left]
  have hrun := r.complete_run (u ++ s ++ v).length _ (fun q => some q) s v hrest hs
    (by rw [List.length_append, List.length_append]; omega) rfl
  exact Option.isSome_map.trans hrun

/-- **A text that holds a match of a pattern that does not look around has a match itself.** -/
theorem occursIn_of_match {source : Text} {r : Regex} (hr : r.looksAround = false) {s : Span}
    (hs : s ∈ (pattern source r).spans t) {content : Text} (hin : s.read t <:+: content) :
    (pattern source r).occursIn content = true := by
  obtain ⟨moving, hmatch⟩ := ((pattern source r).scans_spans t).exists_matchAt? hs
  obtain ⟨found, rest, hrest, hlength, hfound⟩ := matches_of_matchAt? hr hmatch
  have hread : s.read t = found := by
    show (t.drop s.start).take (s.stop - s.start) = found
    rw [hrest, ← hlength, List.take_left]
  exact occursIn_of_matches (hread ▸ hfound) hin

end Anchor

end FlowTypes
