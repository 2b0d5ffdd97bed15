import FlowTypes.Generator

/-!
# Reading options back

All that a generator is told stands in one row of words. An option that is off leaves nothing there, and a value may be any
word, also one that looks like an option. Still the row can be read (`Told.ofArguments?_arguments`), so different options
or definitions never give the same arguments (`Options.arguments_injective`).

The definitions are the last word, and an option always has a word behind it. So the reader, which goes from the left, knows
an option by two things: it is the word that it looks for, and it is not the last one. It never takes a value for an option,
since it takes a value together with the option before it.
-/

namespace FlowTypes.Generator

/-! ## Reading -/

/-- What arguments say: the options, and where the definitions are. Paths are told as texts. -/
structure Told where
  outputDir : Text
  moduleName : Text
  classStem : Text
  addDelete : Bool
  addPointer : Bool
  uncapitalize : Bool
  staticStem : Text
  renames : List Text
  idl : Text
  deriving DecidableEq, Repr

/-- What is told of some options and definitions. -/
def Options.told (o : Options) (idl : Path) : Told :=
  ⟨o.outputDir.text, o.moduleName, o.classStem, o.addDelete, o.addPointer, o.uncapitalize, o.staticStem, o.renames,
    idl.text⟩

/-- Whether the words begin with an option without a value, and the words behind it. The last word is no option. -/
def takeFlag (flag : Text) : List Text → Bool × List Text
  | word :: next :: rest => if word = flag then (true, next :: rest) else (false, word :: next :: rest)
  | words => (false, words)

/-- The value of an option that the words begin with, and the words behind it. Without the option the value is empty. -/
def takeValue (option : Text) : List Text → Text × List Text
  | word :: value :: rest => if word = option then (value, rest) else ([], word :: value :: rest)
  | words => ([], words)

/-- The values of an option that is repeated, and the last word. -/
def takeValues (option : Text) : List Text → Option (List Text × Text)
  | [] => none
  | [last] => some ([], last)
  | word :: value :: rest =>
    if word = option then (takeValues option rest).map fun read => (value :: read.1, read.2) else none

/-- What the arguments say, if they say anything. -/
def Told.ofArguments? : List Text → Option Told
  | _ :: outputDir :: _ :: moduleName :: _ :: classStem :: words =>
    let addDelete := takeFlag "--add-delete-operation" words
    let addPointer := takeFlag "--add-emscripten-ptr-attribute" addDelete.2
    let uncapitalize := takeFlag "--uncapitalize-operations" addPointer.2
    let staticStem := takeValue "--static-operation-prefix" uncapitalize.2
    (takeValues "--rename" staticStem.2).map fun read =>
      ⟨outputDir, moduleName, classStem, addDelete.1, addPointer.1, uncapitalize.1, staticStem.1, read.1, read.2⟩
  | _ => none

/-! ## Words that are left -/

/-- The words begin with one of the options, and it is not the last word; or there is one word only. -/
inductive Begins (options : List Text) : List Text → Prop
  | last (word : Text) : Begins options [word]
  | option {word next : Text} {rest : List Text} (hword : word ∈ options) : Begins options (word :: next :: rest)

section
variable {options words : List Text}

theorem Begins.ne_nil (h : Begins options words) : words ≠ [] := by
  cases h <;> nofun

/-- An option before the words is one more that they can begin with. -/
theorem Begins.onlyIf (option : Text) (h : Begins options words) (condition : Bool) (values : List Text) :
    Begins (option :: options) (onlyIf condition (option :: values) ++ words) := by
  cases condition with
  | true =>
    obtain ⟨next, rest, hnext⟩ := List.exists_cons_of_ne_nil (List.append_ne_nil_of_right_ne_nil values h.ne_nil)
    show Begins (option :: options) (option :: (values ++ words))
    rw [hnext]
    exact .option List.mem_cons_self
  | false =>
    cases h with
    | last word => exact .last word
    | option hword => exact .option (List.mem_cons_of_mem option hword)

theorem begins_flatMap (option : Text) (values : List Text) (last : Text) :
    Begins [option] (values.flatMap (fun value => [option, value]) ++ [last]) := by
  cases values with
  | nil => exact .last last
  | cons value values => exact .option List.mem_cons_self

/-! ## Options that are read -/

/-- **A flag is read as it was written**, if the words behind it do not begin with it. -/
theorem takeFlag_onlyIf (flag : Text) (h : Begins options words) (hflag : flag ∉ options) (condition : Bool) :
    takeFlag flag (onlyIf condition [flag] ++ words) = (condition, words) := by
  cases condition with
  | true =>
    obtain ⟨next, rest, rfl⟩ := List.exists_cons_of_ne_nil h.ne_nil
    exact if_pos rfl
  | false =>
    show takeFlag flag words = (false, words)
    cases h with
    | last word => rfl
    | option hword => exact if_neg (ne_of_mem_of_not_mem hword hflag)

/-- **A value is read as it was written**; it was written if it is not empty. -/
theorem takeValue_onlyIf (option : Text) (h : Begins options words) (hoption : option ∉ options) (value : Text) :
    takeValue option (onlyIf (!value.isEmpty) [option, value] ++ words) = (value, words) := by
  cases value with
  | cons c value => exact if_pos rfl
  | nil =>
    show takeValue option words = ([], words)
    cases h with
    | last word => rfl
    | option hword => exact if_neg (ne_of_mem_of_not_mem hword hoption)

/-- **Repeated options are read as they were written.** -/
theorem takeValues_flatMap (option : Text) (values : List Text) (last : Text) :
    takeValues option (values.flatMap (fun value => [option, value]) ++ [last]) = some (values, last) := by
  induction values with
  | nil => rfl
  | cons value values ih =>
    rw [List.flatMap_cons, List.append_assoc]
    show takeValues option (option :: value :: (values.flatMap (fun value => [option, value]) ++ [last])) = _
    rw [takeValues, if_pos rfl, ih, Option.map_some]

end

/-! ## Arguments that are read -/

/-- **The options are read back from the arguments.** -/
theorem Told.ofArguments?_arguments (o : Options) (idl : Path) :
    Told.ofArguments? (o.arguments idl) = some (o.told idl) := by
  -- what stands behind each option, from the last one to the first
  have hrenames := begins_flatMap "--rename" o.renames idl.text
  have hstem := hrenames.onlyIf "--static-operation-prefix" (!o.staticStem.isEmpty) [o.staticStem]
  have huncapitalize := hstem.onlyIf "--uncapitalize-operations" o.uncapitalize []
  have hpointer := huncapitalize.onlyIf "--add-emscripten-ptr-attribute" o.addPointer []
  -- what each option is read as, from the first one to the last
  have hreadDelete := takeFlag_onlyIf "--add-delete-operation" hpointer (by decide) o.addDelete
  have hreadPointer := takeFlag_onlyIf "--add-emscripten-ptr-attribute" huncapitalize (by decide) o.addPointer
  have hreadUncapitalize := takeFlag_onlyIf "--uncapitalize-operations" hstem (by decide) o.uncapitalize
  have hreadStem := takeValue_onlyIf "--static-operation-prefix" hrenames (by decide) o.staticStem
  simp only [Options.arguments, List.append_assoc, List.cons_append, List.nil_append, Told.ofArguments?, hreadDelete,
    hreadPointer, hreadUncapitalize, hreadStem, takeValues_flatMap, Option.map_some, Options.told]

/-- **Arguments tell everything apart**: they are equal only if all options are, and the paths are written alike. So the
options can be read back from them, whatever words the values are. -/
theorem Options.arguments_injective (o o' : Options) (idl idl' : Path) :
    Told.ofArguments? (o.arguments idl) = some (o.told idl) ∧
      (o.arguments idl = o'.arguments idl' ↔
        idl.text = idl'.text ∧ o.outputDir.text = o'.outputDir.text ∧ o.moduleName = o'.moduleName ∧
          o.classStem = o'.classStem ∧ o.addDelete = o'.addDelete ∧ o.addPointer = o'.addPointer ∧
          o.uncapitalize = o'.uncapitalize ∧ o.staticStem = o'.staticStem ∧ o.renames = o'.renames) := by
  refine ⟨Told.ofArguments?_arguments o idl, fun h => ?_, ?_⟩
  · have hread := Told.ofArguments?_arguments o idl
    rw [h, Told.ofArguments?_arguments, Option.some.injEq] at hread
    simp only [Options.told, Told.mk.injEq] at hread
    obtain ⟨hdir, hmodule, hclass, hdelete, hpointer, huncapitalize, hstem, hrenames, hidl⟩ := hread
    exact ⟨hidl.symm, hdir.symm, hmodule.symm, hclass.symm, hdelete.symm, hpointer.symm, huncapitalize.symm, hstem.symm,
      hrenames.symm⟩
  · rintro ⟨hidl, hdir, hmodule, hclass, hdelete, hpointer, huncapitalize, hstem, hrenames⟩
    simp only [Options.arguments, hidl, hdir, hmodule, hclass, hdelete, hpointer, huncapitalize, hstem, hrenames]

end FlowTypes.Generator
