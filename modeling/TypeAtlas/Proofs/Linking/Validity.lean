import Mathlib
import TypeAtlas.Graph.Link
/-!
Valid links: what holds of links at every step. References refer to smaller numbers, in the way
that their kind selects, and the tables of what has been linked repeat the rows. Each of the four
ways in which links grow keeps them valid.
-/

namespace TypeAtlas.Links

/-- Whatever has been linked before is linked in the same way after. -/
structure Extends (before after : Links) : Prop where
  references : ∀ {number : Nat} {reference : TypeReference},
    before.references.items[number]? = some reference →
      after.references.items[number]? = some reference
  instantiations : ∀ {number : Nat} {instantiation : Instantiation},
    before.instantiations.items[number]? = some instantiation →
      after.instantiations.items[number]? = some instantiation
  linked : ∀ {row number : Nat}, before.linked[row]? = some number →
    after.linked[row]? = some number
  arguments : ∀ {list : Nat} {numbers : List Nat}, before.arguments[list]? = some numbers →
    after.arguments[list]? = some numbers

theorem Extends.refl (links : Links) : links.Extends links :=
  ⟨id, id, id, id⟩

theorem Extends.trans {first second third : Links} (h : first.Extends second)
    (h' : second.Extends third) : first.Extends third :=
  ⟨h'.references ∘ h.references, h'.instantiations ∘ h.instantiations, h'.linked ∘ h.linked,
    h'.arguments ∘ h.arguments⟩

/-- What holds of some links goes on to hold while they grow. -/
def Lasting (property : Links → Prop) : Prop :=
  ∀ {before after : Links}, before.Extends after → property before → property after

/-- An index leads to a number if it is the index of a row that has been linked to it. -/
def Leads (rows : Rows) (links : Links) (index : Int) (number : Nat) : Prop :=
  ∃ row : Nat, index = row ∧ row < rows.references.size ∧ links.linked[row]? = some number

/-- The rows of a table of references that a range lists lead to some numbers, one by one. -/
def ListLeads (rows : Rows) (links : Links) (indices : Array Int) :
    (range numbers : List Nat) → Prop :=
  List.Forall₂ fun i number => ∃ index, indices[i]? = some index ∧ Leads rows links index number

def argumentRange (rows : Rows) (list : Nat) (row : GenericInstRow) : Except Fault (List Nat) :=
  Bounds.range rows row.argumentStart row.argumentCount .genericArguments
    ⟨.genericInsts, list, "arguments"⟩

/-- An argument list has been linked to some numbers. -/
def ArgumentsLead (rows : Rows) (links : Links) (list : Nat) (numbers : List Nat) : Prop :=
  ∃ row range, rows.genericInsts[list]? = some row ∧ argumentRange rows list row = .ok range ∧
    ListLeads rows links rows.genericArguments range numbers

/-- The index of an argument list leads to some numbers if it is the index of a list that has been
linked to them, or stands for no list. -/
def InstLeads (rows : Rows) (links : Links) (index : Int) (numbers : List Nat) : Prop :=
  index = Bounds.noIndex ∧ numbers = [] ∨
    ∃ list : Nat, index = list ∧ list < rows.genericInsts.size ∧
      links.arguments[list]? = some numbers

/-- The data of a row in some role leads to a target. -/
inductive TargetLeads (rows : Rows) (links : Links) : Role → Int → Target → Prop
  | element {index : Int} {number : Nat} (h : Leads rows links index number) :
      TargetLeads rows links .element index (.element number)
  | definition {type : Nat} (h : type < rows.types.size) :
      TargetLeads rows links .definition type (.definition type)
  | parameter {parameter : Nat} (h : parameter < rows.genericParameters.size) :
      TargetLeads rows links .parameter parameter (.parameter parameter)
  | instantiation {genericClass definition number : Nat} {row : GenericClassRow}
      {numbers : List Nat} (hrow : rows.genericClasses[genericClass]? = some row)
      (hdefinition : row.definition = definition) (hlt : definition < rows.types.size)
      (harguments : InstLeads rows links row.arguments numbers)
      (hnumber :
        links.instantiations.items[number]? = some ⟨definition, false, [], numbers⟩) :
      TargetLeads rows links .instantiation genericClass (.instantiation number)
  | plain {data : Int} : TargetLeads rows links .plain data .nothing

section Lasting

variable {rows : Rows} {before after : Links}

theorem Leads.mono {index : Int} {number : Nat} (hgrow : before.Extends after)
    (h : Leads rows before index number) : Leads rows after index number := by
  obtain ⟨row, hindex, hlt, hlinked⟩ := h
  exact ⟨row, hindex, hlt, hgrow.linked hlinked⟩

theorem ListLeads.mono {indices : Array Int} {range numbers : List Nat}
    (hgrow : before.Extends after) (h : ListLeads rows before indices range numbers) :
    ListLeads rows after indices range numbers := by
  refine List.Forall₂.imp ?_ h
  rintro i number ⟨index, hindex, hleads⟩
  exact ⟨index, hindex, hleads.mono hgrow⟩

theorem ArgumentsLead.mono {list : Nat} {numbers : List Nat} (hgrow : before.Extends after)
    (h : ArgumentsLead rows before list numbers) : ArgumentsLead rows after list numbers := by
  obtain ⟨row, range, hrow, hrange, hleads⟩ := h
  exact ⟨row, range, hrow, hrange, hleads.mono hgrow⟩

theorem InstLeads.mono {index : Int} {numbers : List Nat} (hgrow : before.Extends after)
    (h : InstLeads rows before index numbers) : InstLeads rows after index numbers := by
  rcases h with hnone | ⟨list, hindex, hlt, harguments⟩
  · exact Or.inl hnone
  · exact Or.inr ⟨list, hindex, hlt, hgrow.arguments harguments⟩

theorem TargetLeads.mono {role : Role} {data : Int} {target : Target}
    (hgrow : before.Extends after) (h : TargetLeads rows before role data target) :
    TargetLeads rows after role data target := by
  cases h with
  | element h => exact .element (h.mono hgrow)
  | definition h => exact .definition h
  | parameter h => exact .parameter h
  | instantiation hrow hdefinition hlt harguments hnumber =>
      exact .instantiation hrow hdefinition hlt (harguments.mono hgrow)
        (hgrow.instantiations hnumber)
  | plain => exact .plain

end Lasting

section Unique

variable {rows : Rows} {links : Links}

theorem Leads.unique {index : Int} {m n : Nat} (hm : Leads rows links index m)
    (hn : Leads rows links index n) : m = n := by
  obtain ⟨row, hrow, -, hm⟩ := hm
  obtain ⟨other, hother, -, hn⟩ := hn
  obtain rfl : row = other := by omega
  exact Option.some.inj (hm.symm.trans hn)

theorem ListLeads.unique {indices : Array Int} {range ms ns : List Nat}
    (hms : ListLeads rows links indices range ms) (hns : ListLeads rows links indices range ns) :
    ms = ns := by
  refine List.right_unique_forall₂' ?_ hms hns
  rintro i m n ⟨index, hindex, hm⟩ ⟨other, hother, hn⟩
  obtain rfl := Option.some.inj (hindex.symm.trans hother)
  exact hm.unique hn

theorem ArgumentsLead.unique {list : Nat} {ms ns : List Nat}
    (hms : ArgumentsLead rows links list ms) (hns : ArgumentsLead rows links list ns) :
    ms = ns := by
  obtain ⟨row, range, hrow, hrange, hms⟩ := hms
  obtain ⟨row', range', hrow', hrange', hns⟩ := hns
  obtain rfl := Option.some.inj (hrow.symm.trans hrow')
  obtain rfl := Except.ok.inj (hrange.symm.trans hrange')
  exact hms.unique hns

theorem InstLeads.unique {index : Int} {ms ns : List Nat} (hms : InstLeads rows links index ms)
    (hns : InstLeads rows links index ns) : ms = ns := by
  rcases hms with ⟨hm, rfl⟩ | ⟨list, hm, -, hms⟩ <;>
    rcases hns with ⟨hn, rfl⟩ | ⟨list', hn, -, hns⟩
  · rfl
  · simp only [Bounds.noIndex] at hm
    omega
  · simp only [Bounds.noIndex] at hn
    omega
  · obtain rfl : list = list' := by omega
    exact Option.some.inj (hms.symm.trans hns)

theorem TargetLeads.unique {role : Role} {data : Int} {s t : Target}
    (hs : TargetLeads rows links role data s) (ht : TargetLeads rows links role data t) :
    s = t := by
  cases hs with
  | element hs =>
      cases ht with
      | element ht => rw [hs.unique ht]
  | definition hs =>
      generalize hdata : ((_ : Nat) : Int) = data at ht
      cases ht with
      | definition ht => rw [Int.ofNat.inj hdata]
  | parameter hs =>
      generalize hdata : ((_ : Nat) : Int) = data at ht
      cases ht with
      | parameter ht => rw [Int.ofNat.inj hdata]
  | @instantiation genericClass definition m row numbers hrow hdefinition hlt harguments hm =>
      generalize hdata : ((genericClass : Nat) : Int) = data at ht
      cases ht with
      | @instantiation genericClass' definition' n row' numbers' hrow' hdefinition' hlt'
          harguments' hn =>
          obtain rfl : genericClass = genericClass' := Int.ofNat.inj hdata
          obtain rfl := Option.some.inj (hrow.symm.trans hrow')
          obtain rfl : definition = definition' := by omega
          obtain rfl := harguments.unique harguments'
          rw [links.instantiations.number_inj hm hn]
  | plain =>
      cases ht with
      | plain => rfl

end Unique

end TypeAtlas.Links

namespace TypeAtlas

/-- The reference that a row makes with a target. -/
def ReferenceRow.toReference (row : ReferenceRow) (target : Target) : TypeReference :=
  ⟨row.kind, target, row.byref, row.rank⟩

namespace Links

/-- A target that the reference with a number may have in some role. References that it refers to,
directly or as the arguments of an instantiation, have smaller numbers. -/
inductive TargetFits (rows : Rows) (links : Links) (number : Nat) : Role → Target → Prop
  | element {inner : Nat} (h : inner < number) :
      TargetFits rows links number .element (.element inner)
  | definition {type : Nat} (h : type < rows.types.size) :
      TargetFits rows links number .definition (.definition type)
  | parameter {parameter : Nat} (h : parameter < rows.genericParameters.size) :
      TargetFits rows links number .parameter (.parameter parameter)
  | instantiation {index : Nat} {instantiation : Instantiation}
      (hindex : links.instantiations.items[index]? = some instantiation)
      (htype : instantiation.isMethod = false) (hclass : instantiation.classArguments = [])
      (harguments : ∀ argument ∈ instantiation.arguments, argument < number) :
      TargetFits rows links number .instantiation (.instantiation index)
  | plain : TargetFits rows links number .plain .nothing

/-- An instantiation binds a type or a method to references. -/
structure InstantiationFits (rows : Rows) (links : Links) (instantiation : Instantiation) :
    Prop where
  definition : instantiation.definition <
    if instantiation.isMethod then rows.methods.size else rows.types.size
  classArguments : ∀ argument ∈ instantiation.classArguments,
    argument < links.references.items.size
  arguments : ∀ argument ∈ instantiation.arguments, argument < links.references.items.size

/-- The reference of a row repeats the row, with the target that its data leads to. -/
def RowLinked (rows : Rows) (links : Links) (index number : Nat) : Prop :=
  ∃ row target, rows.references[index]? = some row ∧
    links.references.items[number]? = some (row.toReference target) ∧
    TargetLeads rows links (Kind.role row.kind) row.data target

/-- What holds of links at every step. -/
structure Valid (rows : Rows) (links : Links) : Prop where
  references : ∀ {number : Nat} {reference : TypeReference},
    links.references.items[number]? = some reference →
      TargetFits rows links number (Kind.role reference.kind) reference.target
  instantiations : ∀ {number : Nat} {instantiation : Instantiation},
    links.instantiations.items[number]? = some instantiation →
      InstantiationFits rows links instantiation
  linked : ∀ {row number : Nat}, links.linked[row]? = some number →
    RowLinked rows links row number
  arguments : ∀ {list : Nat} {numbers : List Nat}, links.arguments[list]? = some numbers →
    ArgumentsLead rows links list numbers

theorem valid_empty (rows : Rows) : Valid rows {} where
  references := by simp [Interned.empty]
  instantiations := by simp [Interned.empty]
  linked := by simp
  arguments := by simp

section Growth

variable {rows : Rows} {links before after : Links}

theorem Extends.lt_size (hgrow : before.Extends after) {number : Nat}
    (h : number < before.references.items.size) : number < after.references.items.size := by
  have hafter := hgrow.references (Array.getElem?_eq_getElem h)
  exact (Array.getElem?_eq_some_iff.mp hafter).1

theorem TargetFits.mono (hgrow : before.Extends after) {number : Nat} {role : Role}
    {target : Target} (h : TargetFits rows before number role target) :
    TargetFits rows after number role target := by
  cases h with
  | element h => exact .element h
  | definition h => exact .definition h
  | parameter h => exact .parameter h
  | instantiation hindex htype hclass harguments =>
      exact .instantiation (hgrow.instantiations hindex) htype hclass harguments
  | plain => exact .plain

theorem InstantiationFits.mono (hgrow : before.Extends after) {instantiation : Instantiation}
    (h : InstantiationFits rows before instantiation) :
    InstantiationFits rows after instantiation where
  definition := h.definition
  classArguments := fun argument hargument => hgrow.lt_size (h.classArguments argument hargument)
  arguments := fun argument hargument => hgrow.lt_size (h.arguments argument hargument)

theorem RowLinked.mono (hgrow : before.Extends after) {index number : Nat}
    (h : RowLinked rows before index number) : RowLinked rows after index number := by
  obtain ⟨row, target, hrow, hreference, hleads⟩ := h
  exact ⟨row, target, hrow, hgrow.references hreference, hleads.mono hgrow⟩

theorem Leads.lt_size (hvalid : Valid rows links) {index : Int} {number : Nat}
    (h : Leads rows links index number) : number < links.references.items.size := by
  obtain ⟨row, -, -, hlinked⟩ := h
  obtain ⟨_, _, _, hreference, _⟩ := hvalid.linked hlinked
  exact (Array.getElem?_eq_some_iff.mp hreference).1

theorem ListLeads.lt_size (hvalid : Valid rows links) {indices : Array Int}
    {range numbers : List Nat} (h : ListLeads rows links indices range numbers) :
    ∀ number ∈ numbers, number < links.references.items.size := by
  induction h with
  | nil => simp
  | cons hleads _ ih =>
      obtain ⟨index, -, hleads⟩ := hleads
      intro number hnumber
      rcases List.mem_cons.mp hnumber with rfl | hnumber
      · exact hleads.lt_size hvalid
      · exact ih number hnumber

theorem InstLeads.lt_size (hvalid : Valid rows links) {index : Int} {numbers : List Nat}
    (h : InstLeads rows links index numbers) :
    ∀ number ∈ numbers, number < links.references.items.size := by
  rcases h with ⟨-, rfl⟩ | ⟨list, -, -, harguments⟩
  · simp
  · obtain ⟨_, _, _, _, hleads⟩ := hvalid.arguments harguments
    exact hleads.lt_size hvalid

theorem TargetLeads.fits (hvalid : Valid rows links) {role : Role} {data : Int} {target : Target}
    (h : TargetLeads rows links role data target) :
    TargetFits rows links links.references.items.size role target := by
  cases h with
  | element h => exact .element (h.lt_size hvalid)
  | definition h => exact .definition h
  | parameter h => exact .parameter h
  | instantiation hrow hdefinition hlt harguments hnumber =>
      exact .instantiation hnumber rfl rfl (harguments.lt_size hvalid)
  | plain => exact .plain

end Growth

section Steps

variable {rows : Rows} {links : Links}

def withReference (links : Links) (reference : TypeReference) : Links :=
  { links with references := (links.references.intern reference).2 }

def withInstantiation (links : Links) (instantiation : Instantiation) : Links :=
  { links with instantiations := (links.instantiations.intern instantiation).2 }

def withRow (links : Links) (index number : Nat) : Links :=
  { links with linked := links.linked.insert index number }

def withArguments (links : Links) (list : Nat) (numbers : List Nat) : Links :=
  { links with arguments := links.arguments.insert list numbers }

theorem extends_withReference (links : Links) (reference : TypeReference) :
    links.Extends (links.withReference reference) :=
  ⟨links.references.getElem?_intern_of_some reference, id, id, id⟩

theorem extends_withInstantiation (links : Links) (instantiation : Instantiation) :
    links.Extends (links.withInstantiation instantiation) :=
  ⟨id, links.instantiations.getElem?_intern_of_some instantiation, id, id⟩

theorem Valid.withReference (hvalid : Valid rows links) {reference : TypeReference}
    (hfits : TargetFits rows links links.references.items.size (Kind.role reference.kind)
      reference.target) : Valid rows (links.withReference reference) := by
  have hgrow := links.extends_withReference reference
  refine ⟨?_, fun h => (hvalid.instantiations h).mono hgrow,
    fun h => (hvalid.linked h).mono hgrow, fun h => (hvalid.arguments h).mono hgrow⟩
  intro number other hother
  rcases links.references.items_intern reference with ⟨hitems, -⟩ | ⟨hitems, -⟩
  · have hold : links.references.items[number]? = some other := hitems ▸ hother
    exact (hvalid.references hold).mono hgrow
  · change (links.references.intern reference).2.items[number]? = some other at hother
    rw [hitems, Array.getElem?_push] at hother
    split at hother
    · next hnumber =>
        obtain rfl := Option.some.inj hother
        rw [hnumber]
        exact hfits.mono hgrow
    · exact (hvalid.references hother).mono hgrow

theorem Valid.withInstantiation (hvalid : Valid rows links) {instantiation : Instantiation}
    (hfits : InstantiationFits rows links instantiation) :
    Valid rows (links.withInstantiation instantiation) := by
  have hgrow := links.extends_withInstantiation instantiation
  refine ⟨fun h => (hvalid.references h).mono hgrow, ?_,
    fun h => (hvalid.linked h).mono hgrow, fun h => (hvalid.arguments h).mono hgrow⟩
  intro number other hother
  rcases links.instantiations.items_intern instantiation with ⟨hitems, -⟩ | ⟨hitems, -⟩
  · have hold : links.instantiations.items[number]? = some other := hitems ▸ hother
    exact (hvalid.instantiations hold).mono hgrow
  · change (links.instantiations.intern instantiation).2.items[number]? = some other at hother
    rw [hitems, Array.getElem?_push] at hother
    split at hother
    · obtain rfl := Option.some.inj hother
      exact hfits.mono hgrow
    · exact (hvalid.instantiations hother).mono hgrow

theorem RowLinked.unique {index m n : Nat} (hm : RowLinked rows links index m)
    (hn : RowLinked rows links index n) : m = n := by
  obtain ⟨row, target, hrow, hm, hleads⟩ := hm
  obtain ⟨row', target', hrow', hn, hleads'⟩ := hn
  obtain rfl := Option.some.inj (hrow.symm.trans hrow')
  obtain rfl := hleads.unique hleads'
  exact links.references.number_inj hm hn

theorem extends_withRow (hvalid : Valid rows links) {index number : Nat}
    (hlinked : RowLinked rows links index number) :
    links.Extends (links.withRow index number) := by
  refine ⟨id, id, ?_, id⟩
  intro other m hother
  change (links.linked.insert index number)[other]? = some m
  rw [Std.HashMap.getElem?_insert]
  split
  · next heq =>
      obtain rfl := eq_of_beq heq
      rw [hlinked.unique (hvalid.linked hother)]
  · exact hother

theorem Valid.withRow (hvalid : Valid rows links) {index number : Nat}
    (hlinked : RowLinked rows links index number) :
    Valid rows (links.withRow index number) := by
  have hgrow := extends_withRow hvalid hlinked
  refine ⟨fun h => (hvalid.references h).mono hgrow, fun h => (hvalid.instantiations h).mono hgrow,
    ?_, fun h => (hvalid.arguments h).mono hgrow⟩
  intro other m hother
  change (links.linked.insert index number)[other]? = some m at hother
  rw [Std.HashMap.getElem?_insert] at hother
  split at hother
  · next heq =>
      obtain rfl := eq_of_beq heq
      obtain rfl := Option.some.inj hother
      exact hlinked.mono hgrow
  · exact (hvalid.linked hother).mono hgrow

theorem extends_withArguments (hvalid : Valid rows links) {list : Nat} {numbers : List Nat}
    (hleads : ArgumentsLead rows links list numbers) :
    links.Extends (links.withArguments list numbers) := by
  refine ⟨id, id, id, ?_⟩
  intro other ms hother
  change (links.arguments.insert list numbers)[other]? = some ms
  rw [Std.HashMap.getElem?_insert]
  split
  · next heq =>
      obtain rfl := eq_of_beq heq
      rw [hleads.unique (hvalid.arguments hother)]
  · exact hother

theorem Valid.withArguments (hvalid : Valid rows links) {list : Nat} {numbers : List Nat}
    (hleads : ArgumentsLead rows links list numbers) :
    Valid rows (links.withArguments list numbers) := by
  have hgrow := extends_withArguments hvalid hleads
  refine ⟨fun h => (hvalid.references h).mono hgrow, fun h => (hvalid.instantiations h).mono hgrow,
    fun h => (hvalid.linked h).mono hgrow, ?_⟩
  intro other ms hother
  change (links.arguments.insert list numbers)[other]? = some ms at hother
  rw [Std.HashMap.getElem?_insert] at hother
  split at hother
  · next heq =>
      obtain rfl := eq_of_beq heq
      obtain rfl := Option.some.inj hother
      exact hleads.mono hgrow
  · exact (hvalid.arguments hother).mono hgrow

end Steps

end Links

end TypeAtlas
