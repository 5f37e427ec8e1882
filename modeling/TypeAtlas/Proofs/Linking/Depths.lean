import TypeAtlas.Proofs.Linking.Descent

namespace TypeAtlas

open Links TypeGraph

/-- A row lies inside of one that a definition uses, in at most so many generic instances. -/
def Rows.Within (rows : Rows) (most : Nat) (index : Int) : Prop :=
  ∃ user depth, rows.Uses user ∧ rows.Descends (fun _ => True) user depth index ∧ depth ≤ most

/-- The rows that have been linked are used, and those that are no array and no pointer do not lie
too deep inside of a definition. Every reference is that of a row. -/
structure Links.Placed (rows : Rows) (links : Links) : Prop where
  used : ∀ {index number : Nat}, links.linked[index]? = some number → rows.Used index
  within : ∀ {index number : Nat}, links.linked[index]? = some number → rows.IsLeaf index →
    rows.Within Link.mostNesting index
  made : ∀ {number : Nat}, number < links.references.items.size →
    ∃ index : Nat, links.linked[index]? = some number

section Within

variable {rows : Rows} {most most' : Nat} {index part : Int}

theorem Rows.Uses.within (h : rows.Uses index) (most : Nat) : rows.Within most index :=
  ⟨index, 0, h, .refl, Nat.zero_le _⟩

theorem Rows.Within.used (h : rows.Within most index) : rows.Used index := by
  obtain ⟨user, depth, huses, hdescends, -⟩ := h
  exact hdescends.used huses.used

theorem Rows.Within.mono (h : rows.Within most index) (hle : most ≤ most') :
    rows.Within most' index := by
  obtain ⟨user, depth, huses, hdescends, hdepth⟩ := h
  exact ⟨user, depth, huses, hdescends, hdepth.trans hle⟩

theorem Rows.Within.tail (h : rows.Within most index) (hrefers : rows.Refers index part) :
    rows.Within (most + rows.opens index) part := by
  obtain ⟨user, depth, huses, hdescends, hdepth⟩ := h
  exact ⟨user, _, huses, hdescends.tail hrefers trivial, Nat.add_le_add_right hdepth _⟩

theorem opens_le_one (rows : Rows) (index : Int) : rows.opens index ≤ 1 := by
  unfold Rows.opens
  split
  · split <;> decide
  · decide

end Within

namespace Link

variable {rows : Rows} {links : Links}

theorem placed_empty (rows : Rows) : Placed rows {} where
  used := by simp
  within := by simp
  made := by simp [Interned.empty]

theorem run_linkRow (rows : Rows) (links : Links) (index : Nat) (target : Target) :
    StateT.run (linkRow rows index target) links =
      .ok ((links.references.intern ((row rows index).toReference target)).1,
        (links.withReference ((row rows index).toReference target)).withRow index
          (links.references.intern ((row rows index).toReference target)).1) := rfl

theorem linkRow_placed {index : Nat} {target : Target} (hvalid : Valid rows links)
    (hplaced : Placed rows links) (hlt : index < rows.references.size)
    (hleads : TargetLeads rows links (Kind.role (row rows index).kind) (row rows index).data
      target) (hused : rows.Used index)
    (hwithin : rows.IsLeaf index → rows.Within mostNesting index) :
    Ensures rows links (linkRow rows index target) fun _ => Placed rows := by
  intro number after hrun
  obtain ⟨hgrow, hvalid', hnumber⟩ := linkRow_ensures hvalid hlt hleads number after hrun
  rw [run_linkRow] at hrun
  obtain ⟨hnew, rfl⟩ := Prod.mk.inj (Except.ok.inj hrun)
  have hlinked : ∀ {other found : Nat}, (links.linked.insert index number)[other]? = some found →
      other = index ∨ links.linked[other]? = some found := by
    intro other found hother
    rw [Std.HashMap.getElem?_insert] at hother
    split at hother
    · next heq => exact Or.inl (eq_of_beq heq).symm
    · exact Or.inr hother
  rw [hnew] at hgrow hvalid' hnumber ⊢
  refine ⟨hgrow, hvalid', fun hother => ?_, fun hother => ?_, fun {found} hfound => ?_⟩
  · rcases hlinked hother with rfl | hother
    · exact hused
    · exact hplaced.used hother
  · rcases hlinked hother with rfl | hother
    · exact hwithin
    · exact hplaced.within hother
  · by_cases hold : found < links.references.items.size
    · obtain ⟨other, hother⟩ := hplaced.made hold
      exact ⟨other, hgrow.linked hother⟩
    · change found < (links.references.intern _).2.items.size at hfound
      rcases links.references.items_intern ((row rows index).toReference target) with
        ⟨hitems, -⟩ | ⟨hitems, hlast⟩
      · rw [hitems] at hfound
        exact absurd hfound hold
      · rw [hitems, Array.size_push] at hfound
        obtain rfl : found = number := by omega
        exact ⟨index, hnumber⟩

theorem internInstantiation_placed {instantiation : Instantiation} (hvalid : Valid rows links)
    (hplaced : Placed rows links) (hfits : InstantiationFits rows links instantiation) :
    Ensures rows links (internInstantiation instantiation) fun _ => Placed rows := by
  intro number after hrun
  obtain ⟨hgrow, hvalid', -⟩ := internInstantiation_ensures hvalid hfits number after hrun
  obtain ⟨-, rfl⟩ := Prod.mk.inj (Except.ok.inj hrun)
  exact ⟨hgrow, hvalid', hplaced.used, hplaced.within, hplaced.made⟩

theorem rememberArguments_placed {list : Nat} {numbers : List Nat} (hvalid : Valid rows links)
    (hplaced : Placed rows links) (hleads : ArgumentsLead rows links list numbers) :
    Ensures rows links
      (modify fun links => { links with arguments := links.arguments.insert list numbers })
      fun _ => Placed rows := by
  intro number after hrun
  obtain ⟨hgrow, hvalid', -⟩ := rememberArguments_ensures hvalid hleads number after hrun
  obtain ⟨-, rfl⟩ := Prod.mk.inj (Except.ok.inj hrun)
  exact ⟨hgrow, hvalid', hplaced.used, hplaced.within, hplaced.made⟩

theorem ElementChain.within {chain : List Nat} {last first most : Nat}
    (h : ElementChain rows chain last first) (hwithin : rows.Within most first) :
    rows.Within most last := by
  induction h with
  | nil => exact hwithin
  | @cons chain index last first hlt hrole hdata _ ih =>
      have hrow : valueAt? rows.references index = some (row rows index) := getElem?_row hlt
      have hrefers : rows.Refers index (row rows index).data := .element hrow hrole
      have hpart := (ih hwithin).tail hrefers
      rwa [opens_of_role hrow, hrole, if_neg (by decide), Nat.add_zero, hdata] at hpart

theorem linkChain_placed {chain : List Nat} {last first number most : Nat}
    (hvalid : Valid rows links) (hplaced : Placed rows links)
    (hchain : ElementChain rows chain last first) (hlt : last < rows.references.size)
    (hlast : links.linked[last]? = some number) (hwithin : rows.Within most first) :
    Ensures rows links (linkChain rows chain number) fun _ => Placed rows := by
  induction hchain generalizing links number with
  | nil => exact .pure hvalid hplaced
  | @cons chain index last first hindex hrole hdata hchain ih =>
      have hleads : TargetLeads rows links (Kind.role (row rows index).kind)
          (row rows index).data (.element number) := by
        rw [hrole, hdata]
        exact .element ⟨last, rfl, hlt, hlast⟩
      have hleaf : rows.IsLeaf index → rows.Within mostNesting index := by
        rintro ⟨found, hfound, hother⟩
        rw [Option.some.inj (hfound.symm.trans (getElem?_row hindex))] at hother
        exact absurd hrole hother
      refine .bind ((linkRow_ensures hvalid hindex hleads).and
        (linkRow_placed hvalid hplaced hindex hleads (hchain.within hwithin).used hleaf)) ?_
      rintro outer after _ hvalid' ⟨houter, hplaced'⟩
      exact ih hvalid' hplaced' hindex houter hwithin

section Arguments

variable {next : Int → Site → Link Nat}

/-- Whatever has been linked before, a computation keeps the links placed. -/
def KeepsPlaced (rows : Rows) {α : Type} (action : Link α) : Prop :=
  ∀ links, Valid rows links → Placed rows links → Ensures rows links action fun _ => Placed rows

theorem KeepsPlaced.pure {α : Type} (value : α) : KeepsPlaced rows (Pure.pure value) :=
  fun _ hvalid hplaced => .pure hvalid hplaced

theorem KeepsPlaced.bind {α β : Type} {first : Link α} {next : α → Link β}
    (hfirst : KeepsPlaced rows first) (hnext : ∀ value, KeepsPlaced rows (next value)) :
    KeepsPlaced rows (first >>= next) :=
  fun links hvalid hplaced => .bind (hfirst links hvalid hplaced)
    fun value after _ hvalid' hplaced' => hnext value after hvalid' hplaced'

theorem KeepsPlaced.liftBind {α β : Type} {result : Except Fault α} {next : α → Link β}
    (hnext : ∀ value, result = .ok value → KeepsPlaced rows (next value)) :
    KeepsPlaced rows (liftM result >>= next) :=
  fun links hvalid hplaced => .liftBind fun value hvalue => hnext value hvalue links hvalid hplaced

theorem KeepsPlaced.lift {α : Type} (result : Except Fault α) :
    KeepsPlaced rows (liftM result) :=
  fun _ hvalid hplaced => .lift hvalid fun _ _ => hplaced

theorem KeepsPlaced.mapM {α β : Type} {make : α → Link β} {items : List α}
    (hmake : ∀ item ∈ items, KeepsPlaced rows (make item)) :
    KeepsPlaced rows (items.mapM make) := by
  induction items with
  | nil =>
      rw [List.mapM_nil]
      exact .pure _
  | cons item items ih =>
      rw [List.mapM_cons]
      refine .bind (hmake item List.mem_cons_self) fun value => ?_
      refine .bind (ih fun other hother => hmake other (List.mem_cons_of_mem _ hother)) ?_
      exact fun made => .pure _

theorem listed_placed {indices : Array Int} {start count : Int} {target : Table} {site : Site}
    {range : List Nat} (sites : Nat → Site)
    (hrange : Bounds.range rows start count target site = .ok range)
    (hsize : rows.count target = indices.size)
    (hnext : ∀ index, Lists indices start count index → ∀ site,
      KeepsPlaced rows (next index site)) :
    KeepsPlaced rows (range.mapM fun i => next ((indices[i]?).getD Bounds.noIndex) (sites i)) := by
  refine .mapM fun place hplace => ?_
  obtain ⟨value, hvalue, -, hlists⟩ := exists_value_of_range indices hrange hsize hplace
  rw [hvalue, Option.getD_some]
  exact hnext value hlists _

theorem linkArguments_placed {index : Int} {table : Table} {user : Nat}
    (hlinks : LinksRows rows next)
    (hnext : ∀ argument, rows.ListsArgument index argument → ∀ site,
      KeepsPlaced rows (next argument site)) :
    KeepsPlaced rows (linkArguments rows next index table user) := by
  unfold linkArguments
  split
  · exact .pure _
  · refine .liftBind fun list hlist => ?_
    intro links hvalid hplaced
    obtain ⟨rfl, hlt⟩ := Bounds.index_eq_ok_iff.mp hlist
    refine .getBind ?_
    cases hknown : links.arguments[list]? with
    | some numbers => exact .pure hvalid hplaced
    | none =>
        have hrow : rows.genericInsts[list]? = some rows.genericInsts[list] :=
          Array.getElem?_eq_getElem hlt
        simp only [hrow, Option.getD_some]
        refine .liftBind fun range hrange => ?_
        have hkeeps := listed_placed (fun argument => ⟨.genericArguments, argument, "value"⟩) hrange
          rfl fun argument hlists => hnext argument ⟨_, hrow, hlists⟩
        refine .bind ((mapM_ensures hlinks hvalid fun i hi => Bounds.lt_of_mem_range hrange hi).and
          (hkeeps links hvalid hplaced)) ?_
        rintro numbers after _ hvalid' ⟨hleads, hplaced'⟩
        refine .bind (rememberArguments_placed hvalid' hplaced' ⟨_, range, hrow, hrange, hleads⟩) ?_
        exact fun _ last _ hvalid'' hplaced'' => .pure hvalid'' hplaced''

theorem linkClass_placed (hlinks : LinksRows rows next) {user : Nat}
    (hlt : user < rows.references.size) (hrole : Kind.role (row rows user).kind = .instantiation)
    (hnext : ∀ argument, rows.Refers user argument → ∀ site,
      KeepsPlaced rows (next argument site)) :
    KeepsPlaced rows (linkClass rows next (row rows user).data user) := by
  refine .liftBind fun genericClass hclass => ?_
  obtain ⟨hdata, hclasslt⟩ := Bounds.index_eq_ok_iff.mp hclass
  have hclassRow : rows.genericClasses[genericClass]? = some rows.genericClasses[genericClass] :=
    Array.getElem?_eq_getElem hclasslt
  simp only [hclassRow, Option.getD_some]
  refine .liftBind fun definition hdefinition => ?_
  intro links hvalid hplaced
  refine .bind ((linkArguments_ensures hlinks hvalid).and
    (linkArguments_placed hlinks (fun argument hargument => hnext argument
      (.argument (getElem?_row hlt) hrole ?_ hargument)) links hvalid hplaced)) ?_
  · rw [hdata]
    exact hclassRow
  · rintro arguments after _ hvalid' ⟨hleads, hplaced'⟩
    have hfits : InstantiationFits rows after ⟨definition, false, [], arguments⟩ :=
      ⟨(Bounds.index_eq_ok_iff.mp hdefinition).2, by simp, hleads.lt_size hvalid'⟩
    exact internInstantiation_placed hvalid' hplaced' hfits

theorem leafTarget_placed (hlinks : LinksRows rows next) {index : Nat}
    (hlt : index < rows.references.size)
    (hnext : ∀ argument, Kind.role (row rows index).kind = .instantiation →
      rows.Refers index argument → ∀ site, KeepsPlaced rows (next argument site)) :
    KeepsPlaced rows (leafTarget rows next index) := by
  unfold leafTarget
  dsimp only
  cases hrole : Kind.role (row rows index).kind with
  | element => exact .pure _
  | plain => exact .pure _
  | definition => exact .liftBind fun _ _ => .pure _
  | parameter => exact .liftBind fun _ _ => .pure _
  | instantiation =>
      refine .bind (linkClass_placed hlinks hlt hrole fun argument hrefers => ?_) fun _ => .pure _
      exact hnext argument hrole hrefers

end Arguments

theorem linkWith_placed {path : List Nat} {leaf : Nat → Link Nat} {index : Int} {most : Nat}
    (hwithin : rows.Within most index)
    (hleaf : ∀ {links : Links} (last : Nat), Valid rows links → Placed rows links →
      last < rows.references.size → Kind.role (row rows last).kind ≠ .element →
        rows.Within most last → Ensures rows links (leaf last) fun number after =>
          after.linked[last]? = some number ∧ Placed rows after) (site : Site) :
    KeepsPlaced rows (linkWith rows path leaf index site) := by
  intro links hvalid hplaced
  refine .liftBind fun first hfirst => .getBind (.liftBind fun result hresult => .getBind ?_)
  obtain ⟨chain, last⟩ := result
  obtain ⟨rfl, hfirstlt⟩ := Bounds.index_eq_ok_iff.mp hfirst
  obtain ⟨hchain, hlt, hend⟩ := elementChain_eq_ok hresult hfirstlt .nil
  cases hknown : links.linked[last]? with
  | some number => exact linkChain_placed hvalid hplaced hchain hlt hknown hwithin
  | none =>
      refine .bind (hleaf last hvalid hplaced hlt (hend hknown) (hchain.within hwithin)) ?_
      rintro number after _ hvalid' ⟨hnumber, hplaced'⟩
      exact linkChain_placed hvalid' hplaced' hchain hlt hnumber hwithin

/-- The less room there is, the deeper a row may lie inside of a definition. -/
theorem linkReference_placed {room most : Nat} (path : List Nat) {index : Int}
    (hroom : most + room = mostNesting + 1) (hwithin : rows.Within most index) (site : Site) :
    KeepsPlaced rows (linkReference rows room path index site) := by
  induction room generalizing most path index site with
  | zero =>
      -- Chains that end at a linked row are still answered, but they link arrays and pointers only.
      exact linkWith_placed hwithin (fun _ _ _ _ _ _ => .throw) site
  | succ room ih =>
      refine linkWith_placed hwithin ?_ site
      intro links last hvalid hplaced hlt hrole hlast
      have hlinks : LinksRows rows (linkReference rows room (last :: path)) :=
        linkReference_ensures room (last :: path)
      have htarget : KeepsPlaced rows
          (leafTarget rows (linkReference rows room (last :: path)) last) := by
        refine leafTarget_placed hlinks hlt fun argument _ hrefers site => ?_
        -- The row at the end of the chain is the only instance that is opened.
        have hargument := (hlast.tail hrefers).mono (Nat.add_le_add_left (opens_le_one rows _) most)
        exact ih (last :: path) (by omega) hargument site
      refine .bind ((leafTarget_ensures hlinks hvalid hrole).and (htarget links hvalid hplaced)) ?_
      rintro target after _ hvalid' ⟨hleads, hplaced'⟩
      refine (linkRow_ensures hvalid' hlt hleads).and (linkRow_placed hvalid' hplaced' hlt hleads
        hlast.used fun _ => hlast.mono (by omega))

theorem run_linkWith {path : List Nat} {leaf : Nat → Link Nat} {index : Nat}
    (hlt : index < rows.references.size)
    (hchain : elementChain rows links.linked path (rows.references.size + 1) [] index =
      .ok ([], index)) (site : Site) :
    StateT.run (linkWith rows path leaf index site) links =
      match links.linked[index]? with
      | some number => .ok (number, links)
      | none => StateT.run (leaf index) links := by
  have hindex : Bounds.index rows index .typeReferences site = .ok index :=
    Bounds.index_eq_ok_iff.mpr ⟨rfl, hlt⟩
  have hlift : ∀ {α β : Type} (value : α) (next : α → Link β),
      StateT.run (liftM (Except.ok value : Except Fault α) >>= next) links =
        StateT.run (next value) links := fun _ _ => rfl
  have hget : ∀ {β : Type} (next : Links → Link β),
      StateT.run (get >>= next) links = StateT.run (next links) links := fun _ => rfl
  rw [linkWith, hindex, hlift, hget, hchain, hlift, hget]
  cases links.linked[index]? with
  | some number => rfl
  | none => exact congrArg (StateT.run · links) (bind_pure (leaf index))

theorem run_linkReference_of_linked (room : Nat) (path : List Nat) {index number : Nat}
    (hlt : index < rows.references.size) (hlinked : links.linked[index]? = some number)
    (site : Site) :
    StateT.run (linkReference rows room path index site) links = .ok (number, links) := by
  have hcontains : links.linked.contains index = true := by
    rw [Std.HashMap.contains_eq_isSome_getElem?, hlinked, Option.isSome_some]
  have hchain : elementChain rows links.linked path (rows.references.size + 1) [] index =
      .ok ([], index) := by
    rw [elementChain, if_pos hcontains]
  cases room with
  | zero => rw [linkReference, run_linkWith hlt hchain site, hlinked]
  | succ room => rw [linkReference, run_linkWith hlt hchain site, hlinked]

theorem reference_placed {index : Int} (huses : rows.Uses index) (site : Site) :
    KeepsPlaced rows (reference rows index site) :=
  linkReference_placed [] (Nat.zero_add _) (huses.within 0) site

theorem argumentList_placed {index : Int} {table : Table} {user : Nat}
    (huses : ∀ argument, rows.ListsArgument index argument → rows.Uses argument) :
    KeepsPlaced rows (argumentList rows index table user) :=
  linkArguments_placed reference_ensures fun argument hargument =>
    reference_placed (huses argument hargument)

end Link

end TypeAtlas
