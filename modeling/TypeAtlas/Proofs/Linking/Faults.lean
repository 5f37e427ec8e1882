import TypeAtlas.Graph.Build
import TypeAtlas.Proofs.Outcome

namespace TypeAtlas

/-- A fault says that a reference dangles. -/
def Fault.IsDangling (fault : Fault) : Prop := fault.kind = .danglingTypeReference

namespace Link

variable {α β : Type} {rows : Rows} {allowed : Fault → Prop}

/-- Whenever a computation fails, whatever has been linked before, the fault is an allowed one. -/
def FailsOnly (action : Link α) (allowed : Fault → Prop) : Prop :=
  ∀ links fault, StateT.run action links = .error fault → allowed fault

section Rules

theorem FailsOnly.imp {other : Fault → Prop} {action : Link α} (h : FailsOnly action allowed)
    (himp : ∀ fault, allowed fault → other fault) : FailsOnly action other :=
  fun links fault hrun => himp fault (h links fault hrun)

theorem FailsOnly.pure (value : α) : FailsOnly (Pure.pure value) allowed := by
  intro links fault hrun
  cases hrun

theorem FailsOnly.throw {fault : Fault} (h : allowed fault) :
    FailsOnly (MonadExcept.throw fault : Link α) allowed := by
  intro links found hrun
  obtain rfl := Except.error.inj hrun
  exact h

theorem FailsOnly.bind {first : Link α} {next : α → Link β} (hfirst : FailsOnly first allowed)
    (hnext : ∀ value, FailsOnly (next value) allowed) : FailsOnly (first >>= next) allowed := by
  intro links fault hrun
  rw [StateT.run_bind] at hrun
  rcases bind_eq_error hrun with hfault | ⟨⟨value, after⟩, -, hfault⟩
  · exact hfirst links fault hfault
  · exact hnext value after fault hfault

theorem FailsOnly.lift {result : Except Fault α}
    (h : ∀ fault, result = .error fault → allowed fault) :
    FailsOnly (liftM result : Link α) allowed := by
  intro links fault hrun
  cases hresult : result with
  | ok value =>
      rw [hresult] at hrun
      cases hrun
  | error found =>
      rw [hresult] at hrun
      obtain rfl := Except.error.inj hrun
      exact h found hresult

theorem FailsOnly.liftBind {result : Except Fault α} {next : α → Link β} {value : α}
    (hresult : result = .ok value) (hnext : FailsOnly (next value) allowed) :
    FailsOnly (liftM result >>= next) allowed := by
  rw [hresult]
  exact hnext

theorem FailsOnly.getBind {next : Links → Link β}
    (h : ∀ links, FailsOnly (next links) allowed) : FailsOnly (get >>= next) allowed :=
  fun links => h links links

theorem FailsOnly.modify {change : Links → Links} :
    FailsOnly (modify change : Link PUnit) allowed := by
  intro links fault hrun
  cases hrun

theorem FailsOnly.mapM {make : α → Link β} {items : List α}
    (hmake : ∀ item ∈ items, FailsOnly (make item) allowed) :
    FailsOnly (items.mapM make) allowed := by
  induction items with
  | nil => exact .pure _
  | cons item items ih =>
      rw [List.mapM_cons]
      refine .bind (hmake item List.mem_cons_self) fun value => ?_
      refine .bind (ih fun other hother => hmake other (List.mem_cons_of_mem _ hother))
        fun made => ?_
      exact .pure _

end Rules

section Checks

variable {table : Table} {site : Site} {fault : Fault}

theorem isDangling_of_index {value : Int} (h : Bounds.index rows value table site = .error fault) :
    fault.IsDangling := by
  unfold Bounds.index at h
  split at h
  · cases h
  · obtain rfl := Except.error.inj h
    rfl

theorem isDangling_of_optionalIndex {value : Int}
    (h : Bounds.optionalIndex rows value table site = .error fault) : fault.IsDangling := by
  unfold Bounds.optionalIndex at h
  split at h
  · cases h
  · exact isDangling_of_index (map_eq_error h)

theorem isDangling_of_range {start count : Int}
    (h : Bounds.range rows start count table site = .error fault) : fault.IsDangling := by
  unfold Bounds.range at h
  split at h
  · cases h
  · split at h
    · obtain rfl := Except.error.inj h
      rfl
    · cases h

theorem index_failsOnly (rows : Rows) (value : Int) (table : Table) (site : Site) :
    FailsOnly (liftM (Bounds.index rows value table site)) Fault.IsDangling :=
  .lift fun _ => isDangling_of_index

theorem range_failsOnly (rows : Rows) (start count : Int) (table : Table) (site : Site) :
    FailsOnly (liftM (Bounds.range rows start count table site)) Fault.IsDangling :=
  .lift fun _ => isDangling_of_range

theorem isDangling_of_elementChain {linked : Std.HashMap Nat Nat} {path chain : List Nat}
    {fuel current : Nat} (h : elementChain rows linked path fuel chain current = .error fault) :
    fault.IsDangling := by
  induction fuel generalizing chain current with
  | zero =>
      obtain rfl := Except.error.inj h
      rfl
  | succ fuel ih =>
      rw [elementChain] at h
      split at h
      · cases h
      · split at h
        · obtain rfl := Except.error.inj h
          rfl
        · split at h
          · cases h
          · rcases bind_eq_error h with hnext | ⟨next, -, hrest⟩
            · exact isDangling_of_index hnext
            · exact ih hrest

end Checks

section References

theorem linkRow_failsOnly (rows : Rows) (index : Nat) (target : Target) :
    FailsOnly (linkRow rows index target) allowed := by
  intro links fault hrun
  cases hrun

theorem linkChain_failsOnly (rows : Rows) (chain : List Nat) (number : Nat) :
    FailsOnly (linkChain rows chain number) allowed := by
  induction chain generalizing number with
  | nil => exact .pure _
  | cons index chain ih => exact .bind (linkRow_failsOnly rows index _) ih

variable {next : Int → Site → Link Nat}

theorem linkArguments_failsOnly (hnext : ∀ index site, FailsOnly (next index site) Fault.IsDangling)
    (index : Int) (table : Table) (user : Nat) :
    FailsOnly (linkArguments rows next index table user) Fault.IsDangling := by
  unfold linkArguments
  split
  · exact .pure _
  · refine .bind (index_failsOnly _ _ _ _) fun inst => .getBind fun links => ?_
    split
    · exact .pure _
    · refine .bind (range_failsOnly _ _ _ _ _) fun range => ?_
      refine .bind (.mapM fun argument _ => hnext _ _) fun numbers => ?_
      exact .bind .modify fun _ => .pure _

theorem linkClass_failsOnly (hnext : ∀ index site, FailsOnly (next index site) Fault.IsDangling)
    (index : Int) (user : Nat) : FailsOnly (linkClass rows next index user) Fault.IsDangling := by
  refine .bind (index_failsOnly _ _ _ _) fun genericClass => ?_
  refine .bind (index_failsOnly _ _ _ _) fun definition => ?_
  refine .bind (linkArguments_failsOnly hnext _ _ _) fun arguments => ?_
  intro links fault hrun
  cases hrun

theorem leafTarget_failsOnly (hnext : ∀ index site, FailsOnly (next index site) Fault.IsDangling)
    (index : Nat) : FailsOnly (leafTarget rows next index) Fault.IsDangling := by
  unfold leafTarget
  dsimp only
  split
  · exact .bind (index_failsOnly _ _ _ _) fun _ => .pure _
  · exact .bind (index_failsOnly _ _ _ _) fun _ => .pure _
  · exact .bind (linkClass_failsOnly hnext _ _) fun _ => .pure _
  · exact .pure _
  · exact .pure _

theorem linkWith_failsOnly {path : List Nat} {leaf : Nat → Link Nat}
    (hleaf : ∀ last, FailsOnly (leaf last) Fault.IsDangling) (index : Int) (site : Site) :
    FailsOnly (linkWith rows path leaf index site) Fault.IsDangling := by
  refine .bind (index_failsOnly _ _ _ _) fun first => .getBind fun links => ?_
  refine .bind (.lift fun fault => isDangling_of_elementChain) fun result =>
    .getBind fun after => ?_
  split
  · exact linkChain_failsOnly _ _ _
  · exact .bind (hleaf _) fun number => linkChain_failsOnly _ _ _

theorem linkReference_failsOnly (rows : Rows) (room : Nat) (path : List Nat) (index : Int)
    (site : Site) : FailsOnly (linkReference rows room path index site) Fault.IsDangling := by
  induction room generalizing path index site with
  | zero =>
      have hdeep : ∀ last, (tooDeep last).IsDangling := fun _ => rfl
      exact linkWith_failsOnly (fun last => .throw (hdeep last)) index site
  | succ room ih =>
      refine linkWith_failsOnly (fun last => ?_) index site
      exact .bind (leafTarget_failsOnly (ih (last :: path)) last) fun target =>
        linkRow_failsOnly _ _ _

theorem reference_failsOnly (rows : Rows) (index : Int) (site : Site) :
    FailsOnly (reference rows index site) Fault.IsDangling :=
  linkReference_failsOnly rows (mostNesting + 1) [] index site

theorem argumentList_failsOnly (rows : Rows) (index : Int) (table : Table) (user : Nat) :
    FailsOnly (argumentList rows index table user) Fault.IsDangling :=
  linkArguments_failsOnly (reference_failsOnly rows) index table user

end References

end Link

/-- The default value of a row fails as a row of the table of default values does. -/
def Fault.IsMalformedDefault (fault : Fault) (index : Nat) : Prop :=
  fault.kind = .malformedMetadata ∧ fault.table = some (Table.name .fieldDefaultValues) ∧
    fault.index = some (index : Int)

namespace Constant

variable {release : Release} {data : ByteArray} {index : Nat} {place : Int} {fault : Fault}

theorem isMalformedDefault_of_requireBytes {size : Nat}
    (h : requireBytes data index place size = .error fault) : fault.IsMalformedDefault index := by
  unfold requireBytes at h
  split at h
  · obtain rfl := Except.error.inj h
    exact ⟨rfl, rfl, rfl⟩
  · cases h

theorem isMalformedDefault_of_readCompressed (h : readCompressed data index place = .error fault) :
    fault.IsMalformedDefault index := by
  unfold readCompressed at h
  rcases bind_eq_error h with hstart | ⟨start, -, h⟩
  · exact isMalformedDefault_of_requireBytes hstart
  · dsimp only at h
    -- Each longer form requires the bytes that it needs.
    have hlong : ∀ {size : Nat} {result : Nat × Nat},
        (do let _ ← requireBytes data index place size; return result) = .error fault →
          fault.IsMalformedDefault index := by
      intro size result hrest
      rcases bind_eq_error hrest with hbytes | ⟨_, -, hrest⟩
      · exact isMalformedDefault_of_requireBytes hbytes
      · cases hrest
    split at h
    · cases h
    · split at h
      · exact hlong h
      · split at h
        · exact hlong h
        · split at h
          · exact hlong h
          · split at h
            · cases h
            · split at h
              · cases h
              · obtain rfl := Except.error.inj h
                exact ⟨rfl, rfl, rfl⟩

theorem isMalformedDefault_of_readLength (h : readLength release data index place = .error fault) :
    fault.IsMalformedDefault index := by
  unfold readLength at h
  split at h
  · rcases bind_eq_error h with hlength | ⟨_, -, h⟩
    · exact isMalformedDefault_of_readCompressed hlength
    · cases h
  · rcases bind_eq_error h with hstart | ⟨_, -, h⟩
    · exact isMalformedDefault_of_requireBytes hstart
    · cases h

theorem isMalformedDefault_of_readText (h : readText release data index place = .error fault) :
    fault.IsMalformedDefault index := by
  unfold readText at h
  rcases bind_eq_error h with hlength | ⟨⟨length, next⟩, -, h⟩
  · exact isMalformedDefault_of_readLength hlength
  · dsimp only at h
    split at h
    · cases h
    · split at h
      · obtain rfl := Except.error.inj h
        exact ⟨rfl, rfl, rfl⟩
      · rcases bind_eq_error h with hstart | ⟨_, -, h⟩
        · exact isMalformedDefault_of_requireBytes hstart
        · cases h

theorem isMalformedDefault_of_read {kind : Nat}
    (h : read release data kind place index = .error fault) :
    fault.IsMalformedDefault index := by
  unfold read at h
  split at h
  · cases h
  · split at h
    · rcases bind_eq_error h with hstart | ⟨_, -, h⟩
      · exact isMalformedDefault_of_requireBytes hstart
      · cases h
    · split at h
      · exact isMalformedDefault_of_readText h
      · cases h

end Constant

end TypeAtlas
