import FlowTypes.Rule

/-!
# Patching a text

An edit of a text goes match by match. At some matches nothing is due: content that is to follow a match
is left out if it occurs anywhere before the next match, since several rules may put their content after
one class header; content that is to come before a match is left out if it stands right there. Content
that takes the place of a match is always due.

Content goes in as it is. Without a match there is nothing to do, which for a replacement means "done
already" if the content is there.
-/

namespace FlowTypes

/-! ## What a rule did -/

/-- What a rule did to one artifact. `other` stands for labels that no rule gives. -/
inductive Status where
  | created
  | applied
  | alreadyApplied
  | anchorMissed
  | artifactMissing
  | notApplicable
  | other (label : Text)
  deriving DecidableEq, Repr

namespace Status

/-- The name of a status. -/
def text : Status → Text
  | created => "created"
  | applied => "applied"
  | alreadyApplied => "already_applied"
  | anchorMissed => "anchor_missed"
  | artifactMissing => "artifact_missing"
  | notApplicable => "not_applicable"
  | other label => label

/-- The status of a name. -/
def ofText (t : Text) : Status :=
  ([created, applied, alreadyApplied, anchorMissed, artifactMissing, notApplicable].find?
    (·.text = t)).getD (other t)

/-- The rule found nothing to work on. -/
def missed : Status → Bool
  | anchorMissed | artifactMissing => true
  | _ => false

/-- The rule wrote something. -/
def changed : Status → Bool
  | created | applied => true
  | _ => false

theorem text_ofText (t : Text) : (ofText t).text = t := by
  unfold ofText
  cases h : [created, applied, alreadyApplied, anchorMissed, artifactMissing, notApplicable].find?
      (fun s => s.text = t) with
  | none => rfl
  | some s => simpa using List.find?_some h

end Status

/-- A text after an edit, what the edit did, and at how many matches. -/
structure Patched where
  text : Text
  status : Status
  edits : Nat
  deriving DecidableEq, Repr

namespace Patch

/-! ## Where content is due -/

/-- For each match, whether the text up to it does not end with the content; `behind` is the text up to
the first of them, last character first, so that only its start is ever looked at. -/
def dueBefore (content behind : Text) : List Segment → List Bool
  | [] => []
  | s :: rest =>
    (!content.reverse.isPrefixOf behind)
      :: dueBefore content ((s.found ++ s.after).reverse ++ behind) rest

/-- The next match is due if the text up to it does not end with the content. -/
theorem dueBefore_reverse_cons (content upTo : Text) (s : Segment) (rest : List Segment) :
    dueBefore content upTo.reverse (s :: rest) =
      (!Occurrence.endsWith upTo content)
        :: dueBefore content (upTo ++ (s.found ++ s.after)).reverse rest := by
  simp [dueBefore, Occurrence.endsWith, List.isSuffixOf]

/-- For each match, whether content is due at it. -/
def due (placement : Placement) (content : Text) (cuts : Cuts) : List Bool :=
  match placement with
  | .over => cuts.segments.map fun _ => true
  -- `s.after` reaches up to the next match
  | .after => cuts.segments.map fun s => !Occurrence.occursIn content s.after
  | .before => dueBefore content cuts.head.reverse cuts.segments

/-- A match with what follows it, and with the content if it is due. -/
def written (placement : Placement) (content : Text) (s : Segment) (isDue : Bool) : Text :=
  match placement with
  | .over => content ++ s.after
  | .after => s.found ++ (if isDue then content else []) ++ s.after
  | .before => (if isDue then content else []) ++ s.found ++ s.after

/-- The text with the content at every match where it is due. -/
def assemble (placement : Placement) (content : Text) (cuts : Cuts) : Text :=
  cuts.head ++
    (List.zipWith (written placement content) cuts.segments (due placement content cuts)).flatten

/-! ## The edit -/

/-- What an edit makes of a text without a match. -/
def unmatched (placement : Placement) (content t : Text) : Status :=
  if placement = .over && Occurrence.occursIn content t then .alreadyApplied else .anchorMissed

/-- The edit of a text that is cut at some matches. -/
def amendAt (placement : Placement) (content t : Text) (cuts : Cuts) : Patched :=
  if cuts.segments.isEmpty then ⟨t, unmatched placement content t, 0⟩
  else
    let edits := (due placement content cuts).count true
    if edits = 0 then ⟨t, .alreadyApplied, 0⟩
    else ⟨assemble placement content cuts, .applied, edits⟩

/-- The edit of a text at the matches of an anchor. -/
def amend (placement : Placement) (anchor : Anchor) (content t : Text) : Patched :=
  amendAt placement content t (anchor.cuts t)

/-- There is an answer for each match. -/
theorem length_dueBefore (content : Text) :
    ∀ (segments : List Segment) (behind : Text),
      (dueBefore content behind segments).length = segments.length
  | [], _ => rfl
  | s :: rest, upTo => by simp [dueBefore, length_dueBefore content rest]

theorem length_due (placement : Placement) (content : Text) (cuts : Cuts) :
    (due placement content cuts).length = cuts.segments.length := by
  cases placement <;> simp [due, length_dueBefore]

/-- Edits are counted exactly where the status says so. -/
theorem edits_amend_pos_iff (placement : Placement) (anchor : Anchor) (content t : Text) :
    0 < (amend placement anchor content t).edits ↔
      (amend placement anchor content t).status = .applied := by
  unfold amend amendAt unmatched
  dsimp only
  split
  · split <;> simp
  · split
    · simp
    · exact ⟨fun _ => rfl, fun _ => by dsimp only; omega⟩

end Patch

/-- A rule applied to a text. A rule that writes a file patches no text. -/
def Rule.patchText (r : Rule) (t : Text) : Except RuleFault Patched :=
  match r.action with
  | .create => .error (.createPatchesNothing r.name)
  | .amend placement anchor => .ok (Patch.amend placement anchor r.content t)

end FlowTypes
