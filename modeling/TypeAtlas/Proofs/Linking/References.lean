import TypeAtlas.Proofs.Linking.Validity

namespace TypeAtlas.Link

open Links

variable {α β : Type} {rows : Rows} {links : Links}

/-- Whenever a computation ends without a fault, the links have grown, they are valid, and its value
stands in a relation to them. -/
def Ensures (rows : Rows) (links : Links) (action : Link α) (post : α → Links → Prop) : Prop :=
  ∀ value after, StateT.run action links = .ok (value, after) →
    links.Extends after ∧ Valid rows after ∧ post value after

theorem Ensures.imp {action : Link α} {post post' : α → Links → Prop}
    (h : Ensures rows links action post)
    (himp : ∀ value after, links.Extends after → Valid rows after → post value after →
      post' value after) : Ensures rows links action post' := by
  intro value after hrun
  obtain ⟨hgrow, hvalid, hpost⟩ := h _ _ hrun
  exact ⟨hgrow, hvalid, himp value after hgrow hvalid hpost⟩

theorem Ensures.and {action : Link α} {post post' : α → Links → Prop}
    (h : Ensures rows links action post) (h' : Ensures rows links action post') :
    Ensures rows links action fun value after => post value after ∧ post' value after := by
  intro value after hrun
  obtain ⟨hgrow, hvalid, hpost⟩ := h value after hrun
  exact ⟨hgrow, hvalid, hpost, (h' value after hrun).2.2⟩

theorem Ensures.pure {value : α} {post : α → Links → Prop} (hvalid : Valid rows links)
    (h : post value links) : Ensures rows links (Pure.pure value) post := by
  intro value' after hrun
  obtain ⟨rfl, rfl⟩ := Prod.mk.inj (Except.ok.inj hrun)
  exact ⟨Extends.refl _, hvalid, h⟩

theorem Ensures.throw {fault : Fault} {post : α → Links → Prop} :
    Ensures rows links (MonadExcept.throw fault) post := by
  intro value after hrun
  cases hrun

theorem Ensures.bind {first : Link α} {next : α → Link β} {mid : α → Links → Prop}
    {post : β → Links → Prop} (hfirst : Ensures rows links first mid)
    (hnext : ∀ value after, links.Extends after → Valid rows after → mid value after →
      Ensures rows after (next value) post) : Ensures rows links (first >>= next) post := by
  intro result last hrun
  rw [StateT.run_bind] at hrun
  cases hstep : StateT.run first links with
  | error fault =>
      rw [hstep] at hrun
      cases hrun
  | ok step =>
      rw [hstep] at hrun
      obtain ⟨hgrow, hvalid, hmid⟩ := hfirst _ _ hstep
      obtain ⟨hgrow', hvalid', hpost⟩ := hnext step.1 step.2 hgrow hvalid hmid _ _ hrun
      exact ⟨hgrow.trans hgrow', hvalid', hpost⟩

theorem Ensures.lift {result : Except Fault α} {post : α → Links → Prop}
    (hvalid : Valid rows links) (h : ∀ value, result = .ok value → post value links) :
    Ensures rows links (liftM result) post := by
  intro value after hrun
  cases hresult : result with
  | error fault =>
      rw [hresult] at hrun
      cases hrun
  | ok found =>
      rw [hresult] at hrun
      obtain ⟨rfl, rfl⟩ := Prod.mk.inj (Except.ok.inj hrun)
      exact ⟨Extends.refl _, hvalid, h _ hresult⟩

theorem Ensures.liftBind {result : Except Fault α} {next : α → Link β}
    {post : β → Links → Prop}
    (hnext : ∀ value, result = .ok value → Ensures rows links (next value) post) :
    Ensures rows links (liftM result >>= next) post := by
  cases hresult : result with
  | error fault =>
      intro value after hrun
      cases hrun
  | ok found => exact hnext found hresult

theorem Ensures.getBind {next : Links → Link β} {post : β → Links → Prop}
    (h : Ensures rows links (next links) post) :
    Ensures rows links (get >>= next) post := h

/-- A computation for each of some items in turn. What has been ensured for an item has to last
while the next ones are dealt with. -/
theorem Ensures.mapM {make : α → Link β} {post : α → β → Links → Prop} {items : List α}
    (hlasting : ∀ item value, Lasting (post item value))
    (hmake : ∀ item ∈ items, ∀ {links : Links}, Valid rows links →
      Ensures rows links (make item) (post item))
    (hvalid : Valid rows links) :
    Ensures rows links (items.mapM make) fun made after =>
      List.Forall₂ (fun item value => post item value after) items made := by
  induction items generalizing links with
  | nil =>
      rw [List.mapM_nil]
      exact .pure hvalid .nil
  | cons item items ih =>
      rw [List.mapM_cons]
      refine .bind (hmake item List.mem_cons_self hvalid) ?_
      intro value after _ hvalid' hvalue
      refine .bind (ih (fun other hother => hmake other (List.mem_cons_of_mem _ hother)) hvalid') ?_
      intro made last hgrow hvalid'' hmade
      exact .pure hvalid'' (.cons (hlasting item value hgrow hvalue) hmade)

open Links

variable {rows : Rows} {links : Links}

theorem getElem?_row {index : Nat} (h : index < rows.references.size) :
    rows.references[index]? = some (row rows index) := by
  simp [row, h]

theorem row_eq {index : Nat} {found : ReferenceRow} (h : rows.references[index]? = some found) :
    row rows index = found := by
  rw [row, h, Option.getD_some]

theorem internReference_ensures {reference : TypeReference} (hvalid : Valid rows links)
    (hfits : TargetFits rows links links.references.items.size (Kind.role reference.kind)
      reference.target) :
    Ensures rows links (internReference reference) fun number after =>
      after.references.items[number]? = some reference := by
  intro number after hrun
  obtain ⟨rfl, rfl⟩ := Prod.mk.inj (Except.ok.inj hrun)
  exact ⟨links.extends_withReference reference, hvalid.withReference hfits,
    links.references.getElem?_intern reference⟩

theorem internInstantiation_ensures {instantiation : Instantiation} (hvalid : Valid rows links)
    (hfits : InstantiationFits rows links instantiation) :
    Ensures rows links (internInstantiation instantiation) fun number after =>
      after.instantiations.items[number]? = some instantiation := by
  intro number after hrun
  obtain ⟨rfl, rfl⟩ := Prod.mk.inj (Except.ok.inj hrun)
  exact ⟨links.extends_withInstantiation instantiation, hvalid.withInstantiation hfits,
    links.instantiations.getElem?_intern instantiation⟩

theorem remember_ensures {index number : Nat} (hvalid : Valid rows links)
    (hlinked : RowLinked rows links index number) :
    Ensures rows links (remember index number) fun _ after =>
      after.linked[index]? = some number := by
  intro _ after hrun
  obtain ⟨-, rfl⟩ := Prod.mk.inj (Except.ok.inj hrun)
  refine ⟨extends_withRow hvalid hlinked, hvalid.withRow hlinked, ?_⟩
  exact Std.HashMap.getElem?_insert_self

theorem linkRow_ensures {index : Nat} {target : Target} (hvalid : Valid rows links)
    (hlt : index < rows.references.size)
    (hleads : TargetLeads rows links (Kind.role (row rows index).kind) (row rows index).data
      target) :
    Ensures rows links (linkRow rows index target) fun number after =>
      after.linked[index]? = some number := by
  refine .bind (internReference_ensures hvalid (hleads.fits hvalid)) ?_
  intro number after hgrow hvalid' hreference
  have hlinked : RowLinked rows after index number :=
    ⟨row rows index, target, getElem?_row hlt, hreference, hleads.mono hgrow⟩
  refine .bind (remember_ensures hvalid' hlinked) ?_
  intro _ last _ hvalid'' hnumber
  exact .pure hvalid'' hnumber

/-- Arrays and pointers, innermost first, that lead from a first row to a last one. -/
inductive ElementChain (rows : Rows) : List Nat → (last first : Nat) → Prop
  | nil {index : Nat} : ElementChain rows [] index index
  | cons {chain : List Nat} {index last first : Nat} (hlt : index < rows.references.size)
      (hrole : Kind.role (row rows index).kind = .element)
      (hdata : (row rows index).data = (last : Int)) (h : ElementChain rows chain index first) :
      ElementChain rows (index :: chain) last first

theorem elementChain_eq_ok {linked : Std.HashMap Nat Nat} {path : List Nat} {fuel : Nat}
    {chain found : List Nat} {current first last : Nat}
    (h : elementChain rows linked path fuel chain current = .ok (found, last))
    (hlt : current < rows.references.size) (hchain : ElementChain rows chain current first) :
    ElementChain rows found last first ∧ last < rows.references.size ∧
      (linked[last]? = none → Kind.role (row rows last).kind ≠ .element) := by
  induction fuel generalizing chain current with
  | zero => cases h
  | succ fuel ih =>
      simp only [elementChain] at h
      split at h
      · next hknown =>
          obtain ⟨rfl, rfl⟩ := Prod.mk.inj (Except.ok.inj h)
          refine ⟨hchain, hlt, fun hnone => ?_⟩
          rw [Std.HashMap.contains_eq_isSome_getElem?, hnone] at hknown
          exact absurd hknown (by simp)
      · split at h
        · cases h
        · split at h
          · next hrole =>
              obtain ⟨rfl, rfl⟩ := Prod.mk.inj (Except.ok.inj h)
              exact ⟨hchain, hlt, fun _ => hrole⟩
          · next hrole =>
              cases hnext : Bounds.index rows (row rows current).data .typeReferences
                  ⟨.typeReferences, current, "data"⟩ with
              | error fault =>
                  rw [hnext] at h
                  cases h
              | ok next =>
                  rw [hnext] at h
                  obtain ⟨hdata, hnextlt⟩ := Bounds.index_eq_ok_iff.mp hnext
                  exact ih h hnextlt (.cons hlt (not_not.mp hrole) hdata hchain)

theorem linkChain_ensures {chain : List Nat} {last first number : Nat} (hvalid : Valid rows links)
    (hchain : ElementChain rows chain last first) (hlt : last < rows.references.size)
    (hlast : links.linked[last]? = some number) :
    Ensures rows links (linkChain rows chain number) fun number after =>
      after.linked[first]? = some number := by
  induction hchain generalizing links number with
  | nil => exact .pure hvalid hlast
  | @cons chain index last first hindex hrole hdata _ ih =>
      have hleads : TargetLeads rows links (Kind.role (row rows index).kind)
          (row rows index).data (.element number) := by
        rw [hrole, hdata]
        exact .element ⟨last, rfl, hlt, hlast⟩
      refine .bind (linkRow_ensures hvalid hindex hleads) ?_
      intro outer after _ hvalid' houter
      exact ih hvalid' hindex houter

section Arguments

variable {next : Int → Site → Link Nat}

/-- Linking a row answers with a number that the row leads to. -/
def LinksRows (rows : Rows) (next : Int → Site → Link Nat) : Prop :=
  ∀ {links : Links} (index : Int) (site : Site), Valid rows links →
    Ensures rows links (next index site) fun number after => Leads rows after index number

theorem mapM_ensures (hnext : LinksRows rows next) {indices : Array Int} {range : List Nat}
    {site : Nat → Site} (hvalid : Valid rows links) (hrange : ∀ i ∈ range, i < indices.size) :
    Ensures rows links
      (range.mapM fun i => next ((indices[i]?).getD Bounds.noIndex) (site i))
      fun numbers after => ListLeads rows after indices range numbers := by
  refine .mapM ?_ ?_ hvalid
  · rintro i number before after hgrow ⟨index, hindex, hleads⟩
    exact ⟨index, hindex, hleads.mono hgrow⟩
  · intro i hi links hvalid
    obtain ⟨index, hindex⟩ : ∃ index, indices[i]? = some index :=
      ⟨_, Array.getElem?_eq_getElem (hrange i hi)⟩
    rw [hindex, Option.getD_some]
    refine (hnext index (site i) hvalid).imp ?_
    intro number after _ _ hleads
    exact ⟨index, rfl, hleads⟩

theorem rememberArguments_ensures {list : Nat} {numbers : List Nat} (hvalid : Valid rows links)
    (hleads : ArgumentsLead rows links list numbers) :
    Ensures rows links
      (modify fun links => { links with arguments := links.arguments.insert list numbers })
      fun _ after => after.arguments[list]? = some numbers := by
  intro _ after hrun
  obtain ⟨-, rfl⟩ := Prod.mk.inj (Except.ok.inj hrun)
  refine ⟨extends_withArguments hvalid hleads, hvalid.withArguments hleads, ?_⟩
  exact Std.HashMap.getElem?_insert_self

theorem linkArguments_ensures (hnext : LinksRows rows next) {index : Int} {table : Table}
    {user : Nat} (hvalid : Valid rows links) :
    Ensures rows links (linkArguments rows next index table user) fun numbers after =>
      InstLeads rows after index numbers := by
  unfold linkArguments
  split
  · next hnone => exact .pure hvalid (Or.inl ⟨hnone, rfl⟩)
  · refine .liftBind fun list hlist => .getBind ?_
    obtain ⟨hindex, hlt⟩ := Bounds.index_eq_ok_iff.mp hlist
    cases hknown : links.arguments[list]? with
    | some numbers => exact .pure hvalid (Or.inr ⟨list, hindex, hlt, hknown⟩)
    | none =>
        have hrow : rows.genericInsts[list]? = some rows.genericInsts[list] :=
          Array.getElem?_eq_getElem hlt
        simp only [hrow, Option.getD_some]
        refine .liftBind fun range hrange => ?_
        refine .bind (mapM_ensures hnext hvalid fun i hi => Bounds.lt_of_mem_range hrange hi) ?_
        intro numbers after _ hvalid' hleads
        refine .bind (rememberArguments_ensures hvalid' ⟨_, range, hrow, hrange, hleads⟩) ?_
        intro _ last _ hvalid'' harguments
        exact .pure hvalid'' (Or.inr ⟨list, hindex, hlt, harguments⟩)

theorem linkClass_ensures (hnext : LinksRows rows next) {index : Int} {user : Nat}
    (hvalid : Valid rows links) :
    Ensures rows links (linkClass rows next index user) fun number after =>
      TargetLeads rows after .instantiation index (.instantiation number) := by
  refine .liftBind fun genericClass hclass => ?_
  obtain ⟨rfl, hlt⟩ := Bounds.index_eq_ok_iff.mp hclass
  have hrow : rows.genericClasses[genericClass]? = some rows.genericClasses[genericClass] :=
    Array.getElem?_eq_getElem hlt
  simp only [hrow, Option.getD_some]
  refine .liftBind fun definition hdefinition => ?_
  obtain ⟨hdata, hdefinitionlt⟩ := Bounds.index_eq_ok_iff.mp hdefinition
  refine .bind (linkArguments_ensures hnext hvalid) ?_
  intro numbers after _ hvalid' hleads
  have hfits : InstantiationFits rows after ⟨definition, false, [], numbers⟩ :=
    ⟨hdefinitionlt, by simp, hleads.lt_size hvalid'⟩
  refine (internInstantiation_ensures hvalid' hfits).imp ?_
  intro number last hgrow _ hnumber
  exact .instantiation hrow hdata hdefinitionlt (hleads.mono hgrow) hnumber

theorem leafTarget_ensures (hnext : LinksRows rows next) {index : Nat} (hvalid : Valid rows links)
    (hrole : Kind.role (row rows index).kind ≠ .element) :
    Ensures rows links (leafTarget rows next index) fun target after =>
      TargetLeads rows after (Kind.role (row rows index).kind) (row rows index).data target := by
  simp only [leafTarget]
  cases hkind : Kind.role (row rows index).kind with
  | element => exact absurd hkind hrole
  | definition =>
      refine .liftBind fun type htype => .pure hvalid ?_
      obtain ⟨hdata, hlt⟩ := Bounds.index_eq_ok_iff.mp htype
      rw [hdata]
      exact .definition hlt
  | parameter =>
      refine .liftBind fun parameter hparameter => .pure hvalid ?_
      obtain ⟨hdata, hlt⟩ := Bounds.index_eq_ok_iff.mp hparameter
      rw [hdata]
      exact .parameter hlt
  | instantiation =>
      refine .bind (linkClass_ensures hnext hvalid) ?_
      intro number after _ hvalid' hleads
      exact .pure hvalid' hleads
  | plain => exact .pure hvalid .plain

end Arguments

theorem linkWith_ensures {path : List Nat} {leaf : Nat → Link Nat}
    (hleaf : ∀ {links : Links} (last : Nat), Valid rows links → last < rows.references.size →
      Kind.role (row rows last).kind ≠ .element →
        Ensures rows links (leaf last) fun number after => after.linked[last]? = some number)
    (index : Int) (site : Site) (hvalid : Valid rows links) :
    Ensures rows links (linkWith rows path leaf index site) fun number after =>
      Leads rows after index number := by
  refine .liftBind fun first hfirst => .getBind (.liftBind fun result hresult => .getBind ?_)
  obtain ⟨chain, last⟩ := result
  obtain ⟨rfl, hfirstlt⟩ := Bounds.index_eq_ok_iff.mp hfirst
  obtain ⟨hchain, hlt, hend⟩ := elementChain_eq_ok hresult hfirstlt .nil
  cases hknown : links.linked[last]? with
  | some number =>
      refine (linkChain_ensures hvalid hchain hlt hknown).imp ?_
      intro number after _ _ hnumber
      exact ⟨first, rfl, hfirstlt, hnumber⟩
  | none =>
      refine .bind (hleaf last hvalid hlt (hend hknown)) ?_
      intro number after _ hvalid' hnumber
      refine (linkChain_ensures hvalid' hchain hlt hnumber).imp ?_
      intro outer last _ _ houter
      exact ⟨first, rfl, hfirstlt, houter⟩

/-- A linked row leads to the number that is answered, however many generic instances are open. -/
theorem linkReference_ensures (room : Nat) (path : List Nat) :
    LinksRows rows (linkReference rows room path) := by
  induction room generalizing path with
  | zero =>
      intro links index site hvalid
      -- Without room only chains that end at a linked row are answered.
      exact linkWith_ensures (fun last _ _ _ => .throw) index site hvalid
  | succ room ih =>
      intro links index site hvalid
      refine linkWith_ensures ?_ index site hvalid
      intro links last hvalid hlt hrole
      refine .bind (leafTarget_ensures (ih (last :: path)) hvalid hrole) ?_
      intro target after _ hvalid' hleads
      exact linkRow_ensures hvalid' hlt hleads

theorem reference_ensures : LinksRows rows (reference rows) :=
  linkReference_ensures (mostNesting + 1) []

theorem argumentList_ensures {index : Int} {table : Table} {user : Nat}
    (hvalid : Valid rows links) :
    Ensures rows links (argumentList rows index table user) fun numbers after =>
      InstLeads rows after index numbers :=
  linkArguments_ensures reference_ensures hvalid

end TypeAtlas.Link
