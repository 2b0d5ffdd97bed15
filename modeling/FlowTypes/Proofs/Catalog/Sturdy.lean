import FlowTypes.Proofs.Catalog.Names

/-!
# Words that last

A catalog edits a file in many places, and no edit should tear apart what another one has brought in. The places are
next to headers, next to declarations of attributes, before declarations of classes, and within signatures. A word is
*sturdy* if none of these places can lie inside of it (`Sturdy`).

Headers with and without a base are sturdy, and so are the constants of an enumeration (`sturdy_classHeader`,
`sturdy_extendedHeader`, `sturdy_constants`), whatever identifiers they are made from. The constants are so because
every one of them ends in a number, where an attribute has a type.
-/

namespace FlowTypes

open Occurrence (ClosedBy)

namespace Catalog

/-- A word in which no place lies where the rules of a catalog edit, the headers that they replace apart. -/
structure Sturdy (w : Text) : Prop where
  lineEnd : '\r' ∉ w
  opening : '(' ∉ w
  closing : ')' ∉ w
  comma : ',' ∉ w
  begins : ∃ c, w.head? = some c ∧ (c = 'd' ∨ c = '\n')
  ends : ∃ c, w.getLast? = some c ∧ (c = '\x7b' ∨ c = ';' ∨ c = '\n')
  brace : '\x7b' ∉ w.dropLast
  attributes : ∀ a : Attribute, a.name.isIdentifier = true → a.type.isIdentifier = true →
    Occurrence.cutAfter (attributeLine a) w = false
  declares : ¬ "declare class".toList <:+: w.tail

namespace Sturdy

variable {w : Text}

/-- A part of a signature lies apart from a sturdy word. -/
theorem apart (h : Sturdy w) {old : Text} (hbegins : 'd' ∉ old ∧ '\n' ∉ old) (hends : '\x7b' ∉ old ∧ ';' ∉ old)
    {c : Char} (hc : c ∈ old) (hw : c ∉ w) : Occurrence.apart w old = true := by
  obtain ⟨x, hhead, hx⟩ := h.begins
  obtain ⟨y, hlast, hy⟩ := h.ends
  have hxold : x ∉ old := by rcases hx with rfl | rfl <;> simp [hbegins]
  have hyold : y ∉ old := by rcases hy with rfl | rfl | rfl <;> simp [hends, hbegins]
  exact Occurrence.apart_iff.mpr ⟨fun hin => hyold (hin.subset (List.mem_of_getLast? hlast)),
    fun hin => hw (hin.subset hc), Occurrence.meets_eq_false_of_not_mem hlast hyold,
    Occurrence.meets_eq_false_of_head? hhead hxold⟩

theorem cutAfter_header (h : Sturdy w) {D : Text} (hD : D.isIdentifier = true) :
    Occurrence.cutAfter (classHeader D) w = false :=
  Occurrence.cutAfter_of_not_mem (closedBy_classHeader hD).getLast? h.brace

theorem cutBefore_declaration (h : Sturdy w) : Occurrence.cutBefore "declare class".toList w = false := by
  obtain ⟨y, hlast, hy⟩ := h.ends
  have hyword : y ∉ "declare class".toList := by rcases hy with rfl | rfl | rfl <;> decide
  refine Bool.or_eq_false_iff.mpr
    ⟨Bool.eq_false_iff.mpr fun hmeets => ?_, Occurrence.occursIn_eq_false_iff.mpr h.declares⟩
  obtain ⟨s, hs, hsuffix, hbegin⟩ := Occurrence.meets_iff.mp hmeets
  exact hyword (hbegin.subset (Occurrence.mem_of_suffix hlast hs (hsuffix.trans (List.tail_suffix w))))

end Sturdy

/-! ## Headers -/

section
variable {C B : Text}

/-- No declaration begins within the first words of a header, and none after them unless its middle is found there. -/
theorem not_infix_tail_header {rest : Text} (h : ¬ "e c".toList <:+: "lass".toList ++ rest) :
    ¬ "declare class".toList <:+: ("declare class".toList ++ rest).tail := by
  rintro ⟨u, v, hsplit⟩
  have hmiddles : (u ++ "declar".toList) ++ "e c".toList ++ ("lass".toList ++ v) =
      "eclar".toList ++ "e c".toList ++ ("lass".toList ++ rest) := by
    have hword : "declare class".toList = "declar".toList ++ "e c".toList ++ "lass".toList := by decide
    rw [hword] at hsplit
    simpa using hsplit
  rcases Occurrence.split_of_unbordered (by decide) hmiddles with ⟨w, hleft, -⟩ | ⟨hsame, -⟩ | ⟨w, -, hright⟩
  · have hlength := congrArg List.length hleft
    simp at hlength
    omega
  · have hlength := congrArg List.length hsame
    simp at hlength
  · exact h ⟨w, "lass".toList ++ v, hright.symm⟩

theorem not_mem_classHeader (hC : C.isIdentifier = true) {c : Char} (hc : Text.isIdentifierChar c = false)
    (hwords : c ∉ "declare class ".toList ++ " \x7b".toList) : c ∉ classHeader C := by
  unfold classHeader
  rw [List.mem_append, not_or] at hwords
  rw [List.mem_append, List.mem_append, not_or, not_or]
  exact ⟨⟨hwords.1, Text.not_mem_of_isIdentifier hC hc⟩, hwords.2⟩

theorem not_mem_extendedHeader (hC : C.isIdentifier = true) (hB : B.isIdentifier = true) {c : Char}
    (hc : Text.isIdentifierChar c = false)
    (hwords : c ∉ "declare class ".toList ++ " extends ".toList ++ " \x7b".toList) : c ∉ extendedHeader C B := by
  unfold extendedHeader
  simp only [List.mem_append, not_or] at hwords ⊢
  exact ⟨⟨⟨⟨hwords.1.1, Text.not_mem_of_isIdentifier hC hc⟩, hwords.1.2⟩, Text.not_mem_of_isIdentifier hB hc⟩, hwords.2⟩

/-- What is closed by a brace holds none before its end. -/
theorem not_mem_dropLast_of_closedBy {x : Char} {t : Text} (h : ClosedBy x t) : x ∉ t.dropLast := by
  obtain ⟨front, rfl, hfront⟩ := h
  rwa [List.dropLast_concat]

theorem not_infix_name (hC : C.isIdentifier = true) : ¬ "e c".toList <:+: "lass".toList ++ ' ' :: C := by
  have hname := Occurrence.not_infix_insert (a := "e c".toList) (c := "s ".toList) (x := "las".toList) (y := C)
    (by decide) (by decide) fun h => Text.not_mem_of_isIdentifier hC (c := ' ') (by decide) (h.subset (by decide))
  exact hname

/-- What begins and ends like a header is sturdy if it has no other marks and no declaration begins inside of it. -/
theorem sturdy_of_closedBy {h : Text} (hbegins : h.head? = some 'd') (hends : ClosedBy '\x7b' h) (hreturn : '\r' ∉ h)
    (hopening : '(' ∉ h) (hclosing : ')' ∉ h) (hcomma : ',' ∉ h) (hsemicolon : ';' ∉ h)
    (hdeclares : ¬ "declare class".toList <:+: h.tail) : Sturdy h where
  lineEnd := hreturn
  opening := hopening
  closing := hclosing
  comma := hcomma
  begins := ⟨'d', hbegins, .inl rfl⟩
  ends := ⟨'\x7b', hends.getLast?, .inl rfl⟩
  brace := not_mem_dropLast_of_closedBy hends
  attributes _ hname htype := Occurrence.cutAfter_of_not_mem (closedBy_attributeLine hname htype).getLast?
    fun hmem => hsemicolon (List.dropLast_subset _ hmem)
  declares := hdeclares

/-- **Headers are sturdy.** -/
theorem sturdy_classHeader (hC : C.isIdentifier = true) : Sturdy (classHeader C) := by
  have hfree : ∀ {c : Char}, Text.isIdentifierChar c = false → c ∉ "declare class ".toList ++ " \x7b".toList →
      c ∉ classHeader C := not_mem_classHeader hC
  refine sturdy_of_closedBy rfl (closedBy_classHeader hC) (hfree (by decide) (by decide))
    (hfree (by decide) (by decide)) (hfree (by decide) (by decide)) (hfree (by decide) (by decide))
    (hfree (by decide) (by decide)) ?_
  rw [classHeader_eq, List.append_assoc]
  refine not_infix_tail_header ?_
  rw [← List.append_assoc, ← List.append_nil (_ ++ " \x7b".toList)]
  exact Occurrence.not_infix_insert (by decide) (not_infix_name hC) (by decide)

theorem sturdy_extendedHeader (hC : C.isIdentifier = true) (hB : B.isIdentifier = true) :
    Sturdy (extendedHeader C B) := by
  have hfree : ∀ {c : Char}, Text.isIdentifierChar c = false →
      c ∉ "declare class ".toList ++ " extends ".toList ++ " \x7b".toList → c ∉ extendedHeader C B :=
    not_mem_extendedHeader hC hB
  refine sturdy_of_closedBy rfl (closedBy_extendedHeader hC hB) (hfree (by decide) (by decide))
    (hfree (by decide) (by decide)) (hfree (by decide) (by decide)) (hfree (by decide) (by decide))
    (hfree (by decide) (by decide)) ?_
  have hbase : ¬ "e c".toList <:+: "lass".toList ++ ' ' :: C ++ " ex".toList ++ "tend".toList :=
    Occurrence.not_infix_insert (by decide) (not_infix_name hC) (by decide)
  have hends : ¬ "e c".toList <:+: "lass".toList ++ ' ' :: C ++ " ex".toList ++ "tend".toList ++ "s ".toList ++ B :=
    Occurrence.not_infix_insert (by decide) hbase fun h =>
      Text.not_mem_of_isIdentifier hB (c := ' ') (by decide) (h.subset (by decide))
  have hbrace := Occurrence.not_infix_insert (c := " \x7b".toList) (y := []) (by decide) hends (by decide)
  have hwords : "declare class".toList ++ ' ' :: C ++ ' ' :: "extends".toList ++ ' ' :: B ++ " \x7b".toList =
      "declare class".toList ++
        (' ' :: C ++ " ex".toList ++ "tend".toList ++ "s ".toList ++ B ++ " \x7b".toList) := by simp
  rw [extendedHeader_eq, hwords]
  refine not_infix_tail_header ?_
  simpa only [List.append_assoc, List.append_nil] using hbrace

end

/-! ## Members -/

section
variable {a line : Text} {lines : List Text}

/-- Every member starts a line. -/
theorem memberLines_cons (line : Text) (lines : List Text) : memberLines (line :: lines) =
    '\n' :: ((if line.isEmpty then [] else "  ".toList ++ line) ++ memberLines lines) := by
  rw [memberLines, List.flatMap_cons]
  split <;> rfl

theorem head?_memberLines (h : lines ≠ []) : (memberLines lines).head? = some '\n' := by
  obtain ⟨line, rest, rfl⟩ := List.exists_cons_of_ne_nil h
  rw [memberLines_cons, List.head?_cons]

/-- **A word without line ends stands in one of the lines.** -/
theorem exists_infix_of_infix_memberLines (ha : a ≠ []) (hbreak : '\n' ∉ a) (h : a <:+: memberLines lines) :
    ∃ line ∈ lines, a <:+: "  ".toList ++ line := by
  induction lines with
  | nil => exact absurd (List.infix_nil.mp h) ha
  | cons line lines ih =>
    rw [memberLines_cons, List.infix_cons_iff] at h
    rcases h with h | ⟨u, v, h⟩
    · obtain ⟨c, rest, rfl⟩ := List.exists_cons_of_ne_nil ha
      exact absurd ((List.cons_prefix_cons.mp h).1 ▸ List.mem_cons_self) hbreak
    · rcases Occurrence.split_append h with ⟨w, hline, -⟩ | ⟨w, -, hlines⟩ | ⟨b, d, -, hd, rfl, -, hlines⟩
      · refine ⟨line, List.mem_cons_self, ?_⟩
        split at hline
        · exact absurd (List.infix_nil.mp ⟨u, w, hline.symm⟩) ha
        · exact ⟨u, w, hline.symm⟩
      · obtain ⟨line', hline', hin⟩ := ih ⟨w, v, hlines.symm⟩
        exact ⟨line', List.mem_cons_of_mem _ hline', hin⟩
      · -- the next line begins with its line end
        have hne : lines ≠ [] := by
          rintro rfl
          exact hd (List.append_eq_nil_iff.mp hlines.symm).1
        have hhead := head?_memberLines hne
        obtain ⟨c, rest, rfl⟩ := List.exists_cons_of_ne_nil hd
        rw [hlines, List.cons_append, List.head?_cons, Option.some.injEq] at hhead
        exact absurd (List.mem_append_right b (hhead ▸ List.mem_cons_self)) hbreak

end

/-! ## Constants -/

section
variable {name : Text} {members : List Text} {value : Nat}

/-- The indented line of a constant. -/
def constantText (name : Text) (value : Nat) : Text :=
  "  static ".toList ++ name ++ [':'] ++ ' ' :: Text.ofNat value ++ [';']

theorem exists_constantText {line : Text} (h : line ∈ constantLines members) :
    ∃ name ∈ members, ∃ value : Nat, "  ".toList ++ line = constantText name value := by
  obtain ⟨value, hvalue, rfl⟩ := List.mem_mapIdx.mp h
  refine ⟨_, List.getElem_mem hvalue, value, ?_⟩
  have hassoc : ∀ indent static name number : Text, indent ++ (static ++ name ++ [':', ' '] ++ number ++ [';']) =
      indent ++ static ++ name ++ [':'] ++ ' ' :: number ++ [';'] := by simp
  exact hassoc "  ".toList "static ".toList _ _

/-- A number is not the name of a type. -/
theorem ne_ofNat_of_isIdentifier {t : Text} (h : t.isIdentifier = true) (n : Nat) : t ≠ Text.ofNat n := by
  rintro rfl
  obtain ⟨c, rest, hrest⟩ := List.exists_cons_of_ne_nil (Text.ne_nil_of_isIdentifier h)
  rw [hrest, Text.isIdentifier, Bool.and_eq_true, Bool.not_eq_true'] at h
  exact Text.not_mem_ofNat h.1 n (hrest ▸ List.mem_cons_self)

/-- **No constant declares an attribute**: it has a number where the attribute has a type. -/
theorem not_attributeLine_infix_constantText (hname : name.isIdentifier = true) {a : Attribute}
    (haname : a.name.isIdentifier = true) (hatype : a.type.isIdentifier = true) (value : Nat) :
    ¬ attributeLine a <:+: constantText name value := by
  intro h
  have hclosed : ClosedBy ';' (constantText name value) := by
    refine ⟨_, rfl, ?_⟩
    simp only [List.mem_append, List.mem_cons, not_or]
    exact ⟨⟨⟨by decide, Text.not_mem_of_isIdentifier hname (by decide)⟩, by decide⟩, by decide,
      Text.not_mem_ofNat (by decide) value⟩
  have hsuffix := hclosed.suffix_of_infix (List.mem_of_getLast? (closedBy_attributeLine haname hatype).getLast?) h
  have hattribute : ∀ front type : Text,
      front ++ [':', ' '] ++ type ++ [';'] = front ++ [':'] ++ ' ' :: type ++ [';'] := by simp
  rw [attributeLine, show a.name ++ ": " ++ a.type ++ ";" = _ from hattribute a.name a.type] at hsuffix
  exact ne_ofNat_of_isIdentifier hatype value (Occurrence.eq_and_suffix_of_suffix
    (Text.not_mem_of_isIdentifier hatype (by decide)) (Text.not_mem_ofNat (by decide) value) hsuffix).1

/-- No constant declares a class. -/
theorem not_declaration_infix_constantText (hname : name.isIdentifier = true) (value : Nat) :
    ¬ "declare class".toList <:+: constantText name value := by
  have hblank : ∀ {t : Text}, ' ' ∉ t → ¬ "e ".toList <:+: t := fun ht h => ht (h.subset (by decide))
  have hbegins : ¬ "e ".toList <:+: "  stati".toList ++ "c ".toList ++ name :=
    Occurrence.not_infix_insert (by decide) (Occurrence.occursIn_eq_false_iff.mp (by decide))
      (hblank (Text.not_mem_of_isIdentifier hname (by decide)))
  have hends : ' ' ∉ Text.ofNat value ++ [';'] := by
    rw [List.mem_append, not_or]
    exact ⟨Text.not_mem_ofNat (by decide) value, by decide⟩
  have hline := Occurrence.not_infix_insert (c := [':', ' ']) (by decide) hbegins (hblank hends)
  have hmiddle : "e ".toList <:+: "declare class".toList := ⟨"declar".toList, "class".toList, by decide⟩
  have hwords : constantText name value =
      "  stati".toList ++ "c ".toList ++ name ++ [':', ' '] ++ (Text.ofNat value ++ [';']) := by
    have hassoc : ∀ front number : Text, front ++ [':'] ++ ' ' :: number ++ [';'] =
        front ++ [':', ' '] ++ (number ++ [';']) := by simp
    exact hassoc _ _
  rw [hwords]
  exact fun h => hline (hmiddle.trans h)

theorem not_mem_constants (hmembers : ∀ name ∈ members, Text.isIdentifier name = true) {c : Char}
    (hc : Text.isIdentifierChar c = false) (hdigit : c.isDigit = false)
    (hwords : c ∉ "  static ".toList ++ [':', ' ', ';', '\n']) : c ∉ memberLines (constantLines members) := by
  simp only [List.mem_append, List.mem_cons, List.not_mem_nil, or_false, not_or] at hwords
  obtain ⟨hstatic, hcolon, hblank, hend, hbreak⟩ := hwords
  refine not_mem_memberLines hbreak hblank fun line hline h => ?_
  obtain ⟨name, hname, value, htext⟩ := exists_constantText hline
  have hnone : c ∉ constantText name value := by
    unfold constantText
    simp only [List.mem_append, List.mem_cons, List.not_mem_nil, or_false, not_or]
    exact ⟨⟨⟨⟨hstatic, Text.not_mem_of_isIdentifier (hmembers name hname) hc⟩, hcolon⟩, hblank,
      Text.not_mem_ofNat hdigit value⟩, hend⟩
  exact hnone (htext ▸ List.mem_append_right _ h)

/-- **Constants are sturdy.** -/
theorem sturdy_constants (hmembers : ∀ name ∈ members, Text.isIdentifier name = true) (hne : members ≠ []) :
    Sturdy (memberLines (constantLines members)) := by
  have hlines : constantLines members ≠ [] := by simpa [constantLines] using hne
  have hspec := constantLines_spec hmembers
  constructor
  case lineEnd => exact not_mem_constants hmembers (by decide) (by decide) (by decide)
  case opening => exact not_mem_constants hmembers (by decide) (by decide) (by decide)
  case closing => exact not_mem_constants hmembers (by decide) (by decide) (by decide)
  case comma => exact not_mem_constants hmembers (by decide) (by decide) (by decide)
  case begins => exact ⟨'\n', head?_memberLines hlines, .inr rfl⟩
  case ends =>
    obtain ⟨c, hlast, hc⟩ := getLast?_memberLines hlines fun line hline => (hspec line hline).1
    exact ⟨c, hlast, .inr hc⟩
  case brace => exact fun h =>
    not_mem_constants hmembers (c := '\x7b') (by decide) (by decide) (by decide) (List.dropLast_subset _ h)
  case attributes =>
    intro a haname hatype
    have hbreak : '\n' ∉ attributeLine a := not_mem_attributeLine haname hatype (by decide) (by decide) (by decide)
    refine Occurrence.cutAfter_of_head? (head?_memberLines hlines) hbreak fun h => ?_
    have hne := (closedBy_attributeLine haname hatype).ne_nil
    obtain ⟨line, hline, hin⟩ := exists_infix_of_infix_memberLines hne hbreak h
    obtain ⟨name, hname, value, htext⟩ := exists_constantText hline
    exact not_attributeLine_infix_constantText (hmembers name hname) haname hatype value (htext ▸ hin)
  case declares =>
    intro h
    obtain ⟨line, hline, hin⟩ := exists_infix_of_infix_memberLines (by decide) (by decide)
      (h.trans (List.tail_suffix _).isInfix)
    obtain ⟨name, hname, value, htext⟩ := exists_constantText hline
    exact not_declaration_infix_constantText (hmembers name hname) value (htext ▸ hin)

end

end Catalog

end FlowTypes
