import FlowTypes.Anchor
import FlowTypes.FileTree.Wildcard
import FlowTypes.Text.Quoted

/-!
# Rules

A rule is one edit of the generated declarations: it writes a file, or it puts its content after or
before every match of an anchor or in its place. A rule carries the proof that it makes sense:

* a file to be written has a name, not a pattern of names;
* an anchor looks for something;
* content that takes the place of its anchor does not hold the anchor again, so that a second
  application finds nothing to do.

Rules come in as drafts, and `Draft.check` says of a draft that makes no sense what is wrong with it.
-/

namespace FlowTypes

/-! ## Edits -/

/-- What an edit does with its content. -/
inductive Edit where
  | create
  | insertAfter
  | insertBefore
  | replace
  deriving DecidableEq, Repr

namespace Edit

/-- The name of an edit. -/
def text : Edit → Text
  | create => "create"
  | insertAfter => "insert_after"
  | insertBefore => "insert_before"
  | replace => "replace"

/-- The edit of a name. -/
def ofText? (t : Text) : Option Edit :=
  [create, insertAfter, insertBefore, replace].find? (·.text = t)

theorem ofText?_text (e : Edit) : ofText? e.text = some e := by
  cases e <;> decide

end Edit

/-- Where content goes: after a match, before it, or in its place. -/
inductive Placement where
  | after
  | before
  | over
  deriving DecidableEq, Repr

/-- What a rule does: write a file, or amend one at the matches of an anchor. -/
inductive Action where
  | create
  | amend (placement : Placement) (anchor : Anchor)
  deriving DecidableEq, Repr

namespace Action

/-- The edit that an action makes. -/
def edit : Action → Edit
  | create => .create
  | amend .after _ => .insertAfter
  | amend .before _ => .insertBefore
  | amend .over _ => .replace

/-- The anchor of an action, if it has one. -/
def anchor? : Action → Option Anchor
  | create => none
  | amend _ anchor => some anchor

/-- The action makes sense with this target and content. -/
def accepts (target content : Text) : Action → Bool
  | create => !Wildcard.isPattern target
  | amend .over anchor => !anchor.isVoid && !anchor.occursIn content
  | amend _ anchor => !anchor.isVoid

end Action

/-! ## Rules -/

/-- One edit of the generated declarations. Rules run in ascending order of their phases; the target is
a file name or a glob, relative to the directory of the declarations. -/
structure Rule where
  name : Text
  phase : Int
  target : Text
  content : Text
  action : Action
  accepted : action.accepts target content = true
  deriving DecidableEq, Repr

/-- The edit that a rule makes. -/
def Rule.edit (r : Rule) : Edit := r.action.edit

/-- The anchor of a rule, if it has one. -/
def Rule.anchor? (r : Rule) : Option Anchor := r.action.anchor?

/-! ## Drafts -/

/-- A rule as it is put down, before anyone looked whether it makes sense. -/
structure Draft where
  name : Text
  phase : Int
  target : Text
  edit : Text
  content : Text
  anchor : Option Anchor
  deriving DecidableEq, Repr

/-- What can be wrong with a draft, or with the use of a rule. -/
inductive RuleFault where
  | unknownEdit (rule edit : Text)
  | anchorOnCreate (rule : Text)
  | patternOnCreate (rule : Text)
  | noAnchor (rule : Text) (edit : Edit)
  | reproducesAnchor (rule : Text)
  | createPatchesNothing (rule : Text)
  | unreadablePattern (rule source : Text)
  deriving DecidableEq, Repr

/-- The fault in words. -/
def RuleFault.message : RuleFault → Text
  | unknownEdit rule edit => "Rule " ++ rule ++ ": unknown edit " ++ Text.quoted edit
  | anchorOnCreate rule => "Rule " ++ rule ++ ": create rules take no anchor"
  | patternOnCreate rule => "Rule " ++ rule ++ ": create needs a file name"
  | noAnchor rule edit => "Rule " ++ rule ++ ": " ++ edit.text ++ " needs an anchor"
  | reproducesAnchor rule => "Rule " ++ rule ++ ": replacement reproduces its own anchor"
  | createPatchesNothing rule => "Rule " ++ rule ++ ": create rules do not patch text"
  | unreadablePattern rule source =>
    "Rule " ++ rule ++ ": unreadable pattern " ++ Text.quoted source

namespace Draft

/-- The rule with this action in place of the edit and the anchor, if it makes sense. -/
def withAction (d : Draft) (action : Action) : Option Rule :=
  if h : action.accepts d.target d.content = true then
    some ⟨d.name, d.phase, d.target, d.content, action, h⟩
  else none

/-- The rule that a draft puts down for an edit at an anchor. -/
def anchored (d : Draft) (edit : Edit) (placement : Placement) : Except RuleFault Rule :=
  match d.anchor with
  | none => .error (.noAnchor d.name edit)
  | some anchor =>
    if anchor.isVoid then .error (.noAnchor d.name edit)
    else
      match d.withAction (.amend placement anchor) with
      | some rule => .ok rule
      | none => .error (.reproducesAnchor d.name)

/-- The rule that a draft puts down, or what is wrong with it. -/
def check (d : Draft) : Except RuleFault Rule :=
  match Edit.ofText? d.edit with
  | none => .error (.unknownEdit d.name d.edit)
  | some .create =>
    if d.anchor.isSome then .error (.anchorOnCreate d.name)
    else
      match d.withAction .create with
      | some rule => .ok rule
      | none => .error (.patternOnCreate d.name)
  | some .insertAfter => d.anchored .insertAfter .after
  | some .insertBefore => d.anchored .insertBefore .before
  | some .replace => d.anchored .replace .over

end Draft

end FlowTypes
