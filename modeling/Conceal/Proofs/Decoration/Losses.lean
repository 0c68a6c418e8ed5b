import Conceal.Proofs.Decoration.Lifetime

/-!
Handles that get lost, when editors can refuse any call. A key is forgotten before its decoration is
emptied and disposed of, so a host that refuses one of these two calls is left with a decoration
that no key stands for any more. Every other handle that is outstanding is held under its key. Main
statement: `outstanding_iff`.
-/

namespace Conceal

/-- Was a handle created on an editor, and was no disposal of it granted? -/
def Outstanding (past : List Sent) (host : String) (handle : Nat) : Prop :=
  Created past host handle ∧ ⟨host, .dispose handle, true⟩ ∉ past

section past

variable {past : List Sent} {s : Sent} {host : String} {handle : Nat}

/-- A handle is outstanding after one call more if it was created by then, and not disposed of by
any call that was granted. -/
theorem outstanding_snoc : Outstanding (past ++ [s]) host handle ↔
    (Created past host handle ∨ ∃ look, s = ⟨host, .create (some handle) look, true⟩) ∧
      ⟨host, .dispose handle, true⟩ ∉ past ∧ s ≠ ⟨host, .dispose handle, true⟩ := by
  rw [Outstanding, created_snoc, List.mem_append, List.mem_singleton, not_or, ne_comm]

/-- A call that neither creates a handle nor disposes of it does not matter to it. -/
theorem outstanding_snoc_of_ne
    (hcreate : ∀ look, s ≠ ⟨host, .create (some handle) look, true⟩)
    (hdispose : s ≠ ⟨host, .dispose handle, true⟩) :
    Outstanding (past ++ [s]) host handle ↔ Outstanding past host handle := by
  rw [outstanding_snoc, or_iff_left (not_exists.mpr hcreate), and_iff_left hdispose, Outstanding]

end past

namespace Decorations

/-! ## Books -/

/-- What is outstanding is what the host holds and what was lost, and nothing is both. -/
structure Books (lost : String → Nat → Prop) (past : List Sent) (host : Option String)
    (handles : List Nat) : Prop where
  outstanding : ∀ name handle, Outstanding past name handle ↔
    (host = some name ∧ handle ∈ handles) ∨ lost name handle
  apart : ∀ name handle, host = some name → handle ∈ handles → ¬ lost name handle

namespace Books

variable {lost lost' : String → Nat → Prop} {past : List Sent} {host : Option String}
  {handles handles' : List Nat} {name : String} {handle : Nat}

/-- Only which handles are lost matters, not how this is said. -/
theorem congr (h : Books lost past host handles) (hlost : ∀ n k, lost' n k ↔ lost n k) :
    Books lost' past host handles := by
  have heq : lost' = lost := funext fun n => funext fun k => propext (hlost n k)
  rwa [heq]

/-- The order of the handles that are held does not matter. -/
theorem perm (h : Books lost past host handles) (hperm : handles'.Perm handles) :
    Books lost past host handles' where
  outstanding n k := by rw [hperm.mem_iff, h.outstanding]
  apart n k hhost hmem := h.apart n k hhost (hperm.mem_iff.mp hmem)

/-- Where nothing is held, the host does not matter. -/
theorem of_nil (h : Books lost past host []) (host' : Option String) :
    Books lost past host' [] where
  outstanding n k := by simp [h.outstanding]
  apart n k _ hmem := absurd hmem List.not_mem_nil

/-- A call that is refused, or gives stretches, or makes no handle. -/
theorem idle (h : Books lost past host handles) {s : Sent}
    (hs : s.granted = true →
      (∃ look, s.call = .create none look) ∨ ∃ k stretches, s.call = .set k stretches) :
    Books lost (past ++ [s]) host handles where
  outstanding n k := by
    rw [← h.outstanding, outstanding_snoc_of_ne]
    · rintro look rfl
      rcases hs rfl with ⟨_, hcall⟩ | ⟨_, _, hcall⟩ <;> cases hcall
    · rintro rfl
      rcases hs rfl with ⟨_, hcall⟩ | ⟨_, _, hcall⟩ <;> cases hcall
  apart := h.apart

/-- Several calls of this kind. -/
theorem idles (h : Books lost past host handles) {sent : List Sent}
    (hsent : ∀ s ∈ sent, s.granted = true →
      (∃ look, s.call = .create none look) ∨ ∃ k stretches, s.call = .set k stretches) :
    Books lost (past ++ sent) host handles := by
  induction sent generalizing past with
  | nil => rwa [List.append_nil]
  | cons s rest ih =>
    rw [List.append_cons]
    exact ih (h.idle (hsent s List.mem_cons_self)) fun s' hs' =>
      hsent s' (List.mem_cons_of_mem _ hs')

/-- A handle is created that was not there before. -/
theorem create (h : Books lost past (some name) handles) (hnew : ¬ Created past name handle)
    (hundisposed : ¬ Disposed past name handle) (look : Look) :
    Books lost (past ++ [⟨name, .create (some handle) look, true⟩]) (some name)
      (handle :: handles) where
  outstanding n k := by
    by_cases heq : n = name ∧ k = handle
    · obtain ⟨rfl, rfl⟩ := heq
      refine iff_of_true (outstanding_snoc.mpr ⟨Or.inr ⟨look, rfl⟩, ?_, by simp⟩) (by simp)
      exact fun hmem => hundisposed ⟨true, hmem⟩
    · rw [outstanding_snoc_of_ne, h.outstanding]
      · grind
      · rintro look' hs
        obtain ⟨hname, hcall, -⟩ := Sent.mk.inj hs
        exact heq ⟨hname.symm, (Option.some.inj (Call.create.inj hcall).1).symm⟩
      · rintro hs
        cases (Sent.mk.inj hs).2.1
  apart n k hhost hmem hlost := by
    rcases List.mem_cons.mp hmem with rfl | hmem
    · rw [← Option.some.inj hhost] at hlost
      exact hnew ((h.outstanding _ _).mpr (Or.inr hlost)).1
    · exact h.apart n k hhost hmem hlost

/-- The disposal of a handle is granted. -/
theorem dispose (h : Books lost past (some name) (handle :: handles))
    (hdistinct : (handle :: handles).Nodup) :
    Books lost (past ++ [⟨name, .dispose handle, true⟩]) (some name) handles where
  outstanding n k := by
    by_cases heq : n = name ∧ k = handle
    · obtain ⟨rfl, rfl⟩ := heq
      refine iff_of_false (fun hout => (outstanding_snoc.mp hout).2.2 rfl) ?_
      rintro (⟨-, hmem⟩ | hlost)
      · exact hdistinct.notMem hmem
      · exact h.apart n k rfl List.mem_cons_self hlost
    · rw [outstanding_snoc_of_ne, h.outstanding]
      · grind
      · rintro look' hs
        cases (Sent.mk.inj hs).2.1
      · rintro hs
        obtain ⟨hname, hcall, -⟩ := Sent.mk.inj hs
        exact heq ⟨hname.symm, (Call.dispose.inj hcall).symm⟩
  apart n k hhost hmem := h.apart n k hhost (List.mem_cons_of_mem _ hmem)

/-- A handle is given up without a call. -/
theorem lose (h : Books lost past (some name) (handle :: handles))
    (hdistinct : (handle :: handles).Nodup) :
    Books (fun n k => (n = name ∧ k = handle) ∨ lost n k) past (some name) handles where
  outstanding n k := by
    rw [h.outstanding]
    grind
  apart n k hhost hmem := by
    rintro (⟨-, rfl⟩ | hlost)
    · exact hdistinct.notMem hmem
    · exact h.apart n k hhost (List.mem_cons_of_mem _ hmem) hlost

end Books

/-! ## Single operations -/

/-- Was a call with a handle refused? -/
def Refused (d : Decorations) (new : List (String × Call)) (name : String) (handle : Nat) : Prop :=
  ∃ c ∈ new, c.1 = name ∧ c.2.uses handle = true ∧ d.desk.grants c.1 c.2 = false

variable {d d' d'' : Decorations} {new new' : List (String × Call)}

private theorem refused_append {name : String} {handle : Nat} :
    d.Refused (new ++ new') name handle ↔
      d.Refused new name handle ∨ d.Refused new' name handle := by
  simp only [Refused, List.mem_append, or_and_right, exists_or]

/-- New calls lead from decorations to later ones, which have some of the keys with the same host
and the same handles, and handles are lost by calls that are refused. -/
structure Removes (new : List (String × Call)) (d d' : Decorations) : Prop where
  keeps : Keeps new d d'
  host : d'.host = d.host
  handles : d'.handles.Sublist d.handles
  books : ∀ {exact past lost}, Lives exact past d → Books lost past d.host d.held →
    Books (fun n k => d.Refused new n k ∨ lost n k)
      (past ++ (new.map d.desk.mark).reverse) d.host d'.held

/-- Where nothing happens nothing is removed. -/
theorem Removes.refl (d : Decorations) : Removes [] d d where
  keeps := Keeps.refl d
  host := rfl
  handles := List.Sublist.refl _
  books _ hbooks := by simpa [Refused] using hbooks

/-- What an editor would refuse stays the same while handles are kept. -/
theorem Keeps.refused_eq (h : Keeps new d d') : d'.Refused = d.Refused := by
  funext new name handle
  rw [Refused, Refused, h.grants]

theorem Keeps.mark_eq (h : Keeps new d d') : d'.desk.mark = d.desk.mark := by
  funext c
  rw [Desk.mark, Desk.mark, h.grants]

/-- Removals, one after the other, are a removal, with the calls of both. -/
theorem Removes.trans (h : Removes new d d') (h' : Removes new' d' d'') :
    Removes (new' ++ new) d d'' where
  keeps := h.keeps.trans h'.keeps
  host := h'.host.trans h.host
  handles := h'.handles.trans h.handles
  books hlives hbooks := by
    have hlater := h'.books (h.keeps.lives hlives) (h.host ▸ h.books hlives hbooks)
    rw [h.keeps.mark_eq, h.keeps.refused_eq, h.host, List.append_assoc, ← List.reverse_append,
      ← List.map_append] at hlater
    exact hlater.congr fun n k => by rw [refused_append, or_assoc]

/-- The calls between two decorations are those that were found. -/
theorem Grows.keeps (h : Grows d d') (hcalls : d'.desk.calls = new ++ d.desk.calls) :
    Keeps new d d' := by
  obtain ⟨new', h⟩ := h
  rwa [List.append_cancel_right (hcalls.symm.trans h.calls)]

/-- How a removal ends: no call is refused, or it fails at one key, which is forgotten all the same,
and the calls with the handle of this key are the only ones that are refused. -/
inductive Ended {α : Type} (d : Decorations) (new : List (String × Call)) :
    EStateM.Result Fault Decorations α → Prop
  | done (a : α) (d' : Decorations) (hgranted : ∀ n k, ¬ d.Refused new n k) :
    Ended d new (.ok a d')
  | failed (fault : Fault) (d' : Decorations) {name key : String} {handle : Nat}
    (hhost : d.host = some name) (hheld : (key, some handle) ∈ d.handles) (hgone : key ∉ d'.keys)
    (hrefused : ∀ n k, d.Refused new n k ↔ n = name ∧ k = handle) : Ended d new (.error fault d')

/-- A step only removes keys. -/
def Removal {α : Type} (act : Step Decorations α) : Prop :=
  ∀ d, ∃ new, Removes new d (Step.after act d) ∧ Ended d new (act d)

section removal

variable {α β : Type}

private theorem removal_pure (a : α) : Removal (pure a : Step Decorations α) := fun d =>
  ⟨[], Removes.refl d, .done a d (by simp [Refused])⟩

private theorem removal_get : Removal (get : Step Decorations Decorations) := fun d =>
  ⟨[], Removes.refl d, .done d d (by simp [Refused])⟩

/-- Operations that remove, one after the other, remove. -/
theorem Removal.bind {x : Step Decorations α} {f : α → Step Decorations β} (hx : Removal x)
    (hf : ∀ a, Removal (f a)) : Removal (x >>= f) := by
  intro d
  obtain ⟨new, hremoves, hended⟩ := hx d
  generalize hresult : x d = r at hended
  cases hended with
  | failed fault d' hhost hheld hgone hrefused =>
    rw [Step.after_of_error hresult] at hremoves
    rw [Step.after_bind_of_error hresult, Step.bind_of_error hresult]
    exact ⟨new, hremoves, .failed fault d' hhost hheld hgone hrefused⟩
  | done a d' hgranted =>
    rw [Step.after_of_ok hresult] at hremoves
    rw [Step.after_bind_of_ok hresult, Step.bind_of_ok hresult]
    obtain ⟨new', hremoves', hended'⟩ := hf a d'
    refine ⟨new' ++ new, hremoves.trans hremoves', ?_⟩
    -- of the calls of both steps, only those of the second one can be refused
    have hrefused (n : String) (k : Nat) :
        d.Refused (new' ++ new) n k ↔ d'.Refused new' n k := by
      rw [refused_append, or_iff_left (hgranted n k), hremoves.keeps.refused_eq]
    generalize f a d' = r at hended'
    cases hended' with
    | done b d'' hgranted' => exact .done b d'' fun n k => by rw [hrefused]; exact hgranted' n k
    | failed fault d'' hhost hheld hgone hrefused' =>
      exact .failed fault d'' (hremoves.host ▸ hhost) (hremoves.handles.subset hheld) hgone
        fun n k => (hrefused n k).trans (hrefused' n k)

end removal

/-- A key with a handle goes first, then the handle is emptied and disposed of. -/
theorem evict_of_handle? {name key : String} {handle : Nat} (hhost : d.host = some name)
    (hkey : d.handle? key = some handle) : evict key d =
      (onDesk (Desk.send name (.set handle [])) >>= fun _ =>
        onDesk (Desk.send name (.dispose handle))) (d.without key) := by
  unfold evict
  rw [Step.bind_of_ok (Step.get_apply d), Step.bind_of_ok (Step.set_apply d _)]
  simp only [hhost, hkey, without]

/-- Evicting a key without a handle only forgets the key. -/
theorem evict_of_no_handle {key : String} (h : ∀ name handle, d.host = some name →
    d.handle? key ≠ some handle) : evict key d = .ok () (d.without key) := by
  unfold evict
  rw [Step.bind_of_ok (Step.get_apply d), Step.bind_of_ok (Step.set_apply d _)]
  cases hhost : d.host with
  | none => simp only [without, hhost, Step.pure_apply]
  | some name =>
    cases hkey : d.handle? key with
    | none => simp only [without, hhost, Step.pure_apply]
    | some handle => exact (h name handle hhost hkey).elim

/-- A key goes whose handle the host does not have. -/
theorem removes_without {key : String}
    (h : ∀ {exact past}, Lives exact past d → d.handle? key = none) :
    Removes [] d (d.without key) := by
  have hheld {exact : Prop} {past : List Sent} (hl : Lives exact past d) :
      (d.without key).held.Perm d.held := by
    have hperm := perm_filter_ne hl.keys key
    have hnone : (d.handles.lookup key).join = none := h hl
    rw [hnone] at hperm
    exact hperm.symm
  refine ⟨keeps_nil rfl fun hl => ⟨(hl.without key).1, hl.held.perm (hheld hl)⟩, rfl,
    List.filter_sublist, fun hl hbooks => ?_⟩
  simpa [Refused] using hbooks.perm (hheld hl)

/-- A handle that is held and of which the key goes. -/
theorem Lives.held_without {exact : Prop} {past : List Sent} (h : Lives exact past d)
    {key : String} {handle : Nat} (hkey : d.handle? key = some handle) :
    (handle :: (d.without key).held).Perm d.held ∧ (handle :: (d.without key).held).Nodup := by
  have hperm := (perm_filter_ne h.keys key).symm
  have hsome : (d.handles.lookup key).join = some handle := hkey
  rw [hsome] at hperm
  exact ⟨hperm, hperm.nodup_iff.mpr h.held.distinct⟩

section held

variable {name key : String} {handle : Nat} {desk : Desk}

/-- The handle of a key that goes was emptied and disposed of. -/
private theorem removes_of_granted (hhost : d.host = some name) (hkey : d.handle? key = some handle)
    (hgrows : Grows d { d.without key with desk })
    (hcalls : desk.calls = [(name, .dispose handle), (name, .set handle [])] ++ d.desk.calls)
    (hset : d.desk.grants name (.set handle []) = true)
    (hdispose : d.desk.grants name (.dispose handle) = true) :
    Removes [(name, .dispose handle), (name, .set handle [])] d { d.without key with desk } where
  keeps := hgrows.keeps hcalls
  host := rfl
  handles := List.filter_sublist
  books {_ past lost} hl hbooks := by
    obtain ⟨hperm, hdistinct⟩ := hl.held_without hkey
    have hemptied : Books lost (past ++ [⟨name, .set handle [], true⟩]) (some name)
        (handle :: (d.without key).held) :=
      ((hhost ▸ hbooks).perm hperm).idle fun _ => Or.inr ⟨handle, [], rfl⟩
    have hgone := hemptied.dispose hdistinct
    have hsent : ([(name, Call.dispose handle), (name, .set handle [])].map d.desk.mark).reverse =
        [⟨name, .set handle [], true⟩] ++ [⟨name, .dispose handle, true⟩] := by
      simp [Desk.mark, hset, hdispose]
    rw [hhost, hsent, ← List.append_assoc]
    exact hgone.congr fun n k => or_iff_right (by simp [Refused, hset, hdispose])

/-- The handle of a key that goes is lost where it is not disposed of. -/
private theorem removes_of_refused (hhost : d.host = some name) (hkey : d.handle? key = some handle)
    (hgrows : Grows d { d.without key with desk }) (hcalls : desk.calls = new ++ d.desk.calls)
    (hset : ∀ c ∈ new, d.desk.grants c.1 c.2 = true → ∃ k stretches, c.2 = .set k stretches)
    (hrefused : ∀ n k, d.Refused new n k ↔ n = name ∧ k = handle) :
    Removes new d { d.without key with desk } where
  keeps := hgrows.keeps hcalls
  host := rfl
  handles := List.filter_sublist
  books hl hbooks := by
    obtain ⟨hperm, hdistinct⟩ := hl.held_without hkey
    rw [hhost] at hbooks ⊢
    have hlost := (hbooks.perm hperm).lose hdistinct
    refine (hlost.idles fun s hs => ?_).congr fun n k => by rw [hrefused]
    obtain ⟨c, hc, rfl⟩ := List.mem_map.mp (List.mem_reverse.mp hs)
    exact fun hgranted => Or.inr (hset c hc hgranted)

/-- The key goes in any case; then the handle is emptied and, if that is granted, disposed of. -/
theorem evict_cases {e : Editor} (hhost : d.host = some name) (hkey : d.handle? key = some handle)
    (he : d.desk.editor? name = some e) :
    ∃ desk,
      (d.desk.grants name (.set handle []) = true ∧
          desk.calls = [(name, .dispose handle), (name, .set handle [])] ++ d.desk.calls ∧
          (d.desk.grants name (.dispose handle) = true ∧
              evict key d = .ok () { d.without key with desk } ∨
            d.desk.grants name (.dispose handle) = false ∧
              ∃ fault, evict key d = .error fault { d.without key with desk })) ∨
        d.desk.grants name (.set handle []) = false ∧
          desk.calls = [(name, .set handle [])] ++ d.desk.calls ∧
          ∃ fault, evict key d = .error fault { d.without key with desk } := by
  obtain ⟨desk, hreceived, he', ⟨hgrants, hset⟩ | ⟨hrefuses, fault, hset⟩⟩ :=
    onDesk_send (d := d.without key) he (.set handle [])
  · obtain ⟨desk', hreceived', -, hdispose⟩ :=
      onDesk_send (d := { d.without key with desk }) he' (.dispose handle)
    have hsame : desk.grants = d.desk.grants := hreceived.grants
    rw [hsame] at hdispose
    rw [evict_of_handle? hhost hkey, Step.bind_of_ok hset]
    exact ⟨desk', Or.inl ⟨hgrants, hreceived'.calls.trans (congrArg _ hreceived.calls), hdispose⟩⟩
  · rw [evict_of_handle? hhost hkey, Step.bind_of_error hset]
    exact ⟨desk, Or.inr ⟨hrefuses, hreceived.calls, fault, rfl⟩⟩

/-- Evicting a key with a handle on an editor that is there: two calls at most, and a failure of one
of them ends it. -/
theorem removal_of_handle? {e : Editor} (hhost : d.host = some name)
    (hkey : d.handle? key = some handle) (he : d.desk.editor? name = some e) :
    ∃ new, Removes new d (Step.after (evict key) d) ∧ Ended d new (evict key d) := by
  have hgrows := grows_evict key d
  have hheld : (key, some handle) ∈ d.handles := mem_handles_of_handle? hkey
  have hgone : key ∉ (d.without key).keys := by simp [without, keys]
  obtain ⟨desk, ⟨hset, hcalls, ⟨hdispose, hevict⟩ | ⟨hdispose, fault, hevict⟩⟩ |
    ⟨hset, hcalls, fault, hevict⟩⟩ := evict_cases hhost hkey he
  · rw [Step.after_of_ok hevict] at hgrows ⊢
    rw [hevict]
    exact ⟨_, removes_of_granted hhost hkey hgrows hcalls hset hdispose,
      .done () _ (by simp [Refused, hset, hdispose])⟩
  · have hrefused (n : String) (k : Nat) :
        d.Refused [(name, .dispose handle), (name, .set handle [])] n k ↔
          n = name ∧ k = handle := by
      simp [Refused, hset, hdispose, Call.uses, eq_comm (a := n), eq_comm (a := k)]
    rw [Step.after_of_error hevict] at hgrows ⊢
    rw [hevict]
    exact ⟨_, removes_of_refused hhost hkey hgrows hcalls (by simp [hdispose]) hrefused,
      .failed fault _ hhost hheld hgone hrefused⟩
  · have hrefused (n : String) (k : Nat) :
        d.Refused [(name, .set handle [])] n k ↔ n = name ∧ k = handle := by
      simp [Refused, hset, Call.uses, eq_comm (a := n), eq_comm (a := k)]
    rw [Step.after_of_error hevict] at hgrows ⊢
    rw [hevict]
    exact ⟨_, removes_of_refused hhost hkey hgrows hcalls (by simp) hrefused,
      .failed fault _ hhost hheld hgone hrefused⟩

end held

/-- Whatever the host says, evicting a key is a removal. -/
theorem removal_evict (key : String) : Removal (evict key) := by
  intro d
  by_cases hhandle : ∃ name handle, d.host = some name ∧ d.handle? key = some handle
  · obtain ⟨name, handle, hhost, hkey⟩ := hhandle
    cases he : d.desk.editor? name with
    | some e => exact removal_of_handle? hhost hkey he
    | none =>
      have hnothing := onDesk_send_absent (d := d.without key) he
      have hevict : evict key d = .ok () (d.without key) :=
        (evict_of_handle? hhost hkey).trans ((Step.bind_of_ok (hnothing _)).trans (hnothing _))
      rw [Step.after_of_ok hevict, hevict]
      refine ⟨[], removes_without fun hl => ?_, .done () _ (by simp [Refused])⟩
      obtain ⟨e, he'⟩ := hl.editor hhost hkey
      rw [he] at he'
      cases he'
  · have hnone : ∀ name handle, d.host = some name → d.handle? key ≠ some handle :=
      fun name handle hhost hkey => hhandle ⟨name, handle, hhost, hkey⟩
    have hevict := evict_of_no_handle hnone
    rw [Step.after_of_ok hevict, hevict]
    refine ⟨[], removes_without fun hl => ?_, .done () _ (by simp [Refused])⟩
    rw [Option.eq_none_iff_forall_not_mem]
    intro handle hkey
    obtain ⟨name, hhost, -⟩ := hl.held.alive handle (mem_held_of_handle? hkey)
    exact hnone name handle hhost hkey

/-- Evicting keys one after the other is a removal, up to the first failure. -/
theorem removal_evictEach (keys : List String) : Removal (evictEach keys) := by
  induction keys with
  | nil => exact removal_pure ()
  | cons key rest ih => exact (removal_evict key).bind fun _ => ih

theorem removal_evictAllExcept (keep : List String) : Removal (evictAllExcept keep) :=
  removal_get.bind fun _ => (removal_evictEach _).bind fun _ => removal_pure _

theorem removal_clear : Removal clear := removal_get.bind fun _ => removal_evictEach _

/-! ## Events -/

/-- What comes of a step that removes keys, and of one that then changes the host: the books are
kept, and after a failure the keys that are left have their handles on the same host. -/
structure Drops (act : Step Decorations Unit) (d : Decorations) (new : List (String × Call)) :
    Prop where
  calls : (Step.after act d).desk.calls = new ++ d.desk.calls
  ended : Ended d new (act d)
  failed : ∀ fault d', act d = .error fault d' → Removes new d d'
  books : ∀ {exact past lost}, Lives exact past d → Books lost past d.host d.held →
    Books (fun n k => d.Refused new n k ∨ lost n k) (past ++ (new.map d.desk.mark).reverse)
      (Step.after act d).host (Step.after act d).held

/-- A removal drops the handles that it takes off the books. -/
theorem Removal.drops {act : Step Decorations Unit} (h : Removal act) (d : Decorations) :
    ∃ new, Drops act d new := by
  obtain ⟨new, hremoves, hended⟩ := h d
  refine ⟨new, hremoves.keeps.calls, hended, fun fault d' hact => ?_, fun hl hbooks => ?_⟩
  · rwa [Step.after_of_error hact] at hremoves
  · rw [hremoves.host]
    exact hremoves.books hl hbooks

/-- Going to another host drops handles, and the books begin anew. -/
theorem drops_setHost (host : Option String) (d : Decorations) :
    ∃ new, Drops (setHost host) d new := by
  by_cases hsame : d.host = host
  · have hset : setHost host d = .ok () d := by
      unfold setHost
      rw [Step.bind_of_ok (Step.get_apply d)]
      simp only [if_pos hsame]
      rfl
    refine ⟨[], ?_, ?_, fun fault d' herror => ?_, fun hl hbooks => ?_⟩
    · rw [Step.after_of_ok hset]; rfl
    · rw [hset]; exact .done () d (by simp [Refused])
    · rw [hset] at herror; cases herror
    · rw [Step.after_of_ok hset]
      exact (Removes.refl d).books hl hbooks
  · -- the old host is cleared first, and a refusal there is all that happens
    obtain ⟨new, hclear⟩ := removal_clear.drops d
    refine ⟨new, ?_⟩
    rcases setHost_cases d hsame with ⟨d', hok, hset⟩ | ⟨fault, d', herror, hset⟩
    · have hnone : d'.held = [] := by rw [held, handles_clear hok]; rfl
      obtain ⟨hcalls, hended, -, hbooks⟩ := hclear
      rw [Step.after_of_ok hok] at hcalls hbooks
      refine ⟨?_, ?_, fun fault d'' herror => ?_, fun hl hb => ?_⟩
      · rw [Step.after_of_ok hset]; exact hcalls
      · rw [hset]
        rw [hok] at hended
        cases hended with
        | done _ _ hgranted => exact .done () _ hgranted
      · rw [hset] at herror; cases herror
      · have hlater := hbooks hl hb
        rw [hnone] at hlater
        rw [Step.after_of_ok hset]
        show Books _ _ host d'.held
        rw [hnone]
        exact hlater.of_nil host
    · have hsame : Step.after (setHost host) d = Step.after clear d := by
        rw [Step.after_of_error hset, Step.after_of_error herror]
      have hresult : setHost host d = clear d := hset.trans herror.symm
      exact ⟨hsame ▸ hclear.calls, hresult ▸ hclear.ended, hresult ▸ hclear.failed,
        hsame ▸ hclear.books⟩

/-- Are keys to be removed? -/
def Event.removes : Event → Bool
  | .evicted _ | .evictedAllExcept _ | .cleared | .moved _ => true
  | _ => false

/-- Every event that removes drops what it takes off the books. -/
theorem drops_perform {e : Event} (he : e.removes = true) (d : Decorations) :
    ∃ new, Drops (perform e) d new := by
  cases e with
  | evicted key => exact (removal_evict key).drops d
  | evictedAllExcept keep =>
    exact ((removal_evictAllExcept keep).bind fun _ => removal_pure ()).drops d
  | cleared => exact removal_clear.drops d
  | moved host => exact drops_setHost host d
  | _ => cases he

/-- Was a call with a handle refused when keys were to be removed? -/
def LostBy (d : Decorations) (e : Event) (name : String) (handle : Nat) : Prop :=
  e.removes = true ∧
    ∃ s ∈ d.sentBy e, s.host = name ∧ s.call.uses handle = true ∧ s.granted = false

/-- Was a handle lost by one of several events? -/
def Lost (d : Decorations) : List Event → String → Nat → Prop
  | [], _, _ => False
  | e :: rest, name, handle =>
    d.LostBy e name handle ∨ Lost (Step.after (perform e) d) rest name handle

/-- What an event loses is what its calls were refused for. -/
theorem lostBy_iff {e : Event} (he : e.removes = true) (hdrops : Drops (perform e) d new)
    (name : String) (handle : Nat) : d.LostBy e name handle ↔ d.Refused new name handle := by
  rw [LostBy, sentBy_eq new hdrops.calls, and_iff_right he]
  simp [Refused, Desk.mark]

/-! ## What removes nothing -/

section add

variable {exact : Prop} {past : List Sent} {lost : String → Nat → Prop} {name : String}

/-- A key without a handle has got one, or none. -/
theorem Books.insertHandle {host : Option String} {key : String} (hkey : d.handle? key = none)
    (handle : Option Nat) (h : Books lost past host (handle.toList ++ d.held)) :
    Books lost past host ((insertHandle d.handles key handle).filterMap (·.2)) :=
  h.perm (perm_insertHandle hkey handle)

/-- A decoration is created by a call that is granted; if the editor gives a handle, it is new. -/
theorem Books.createNext (hl : Lives exact past d) (h : Books lost past (some name) d.held)
    {e : Editor} (he : d.desk.editor? name = some e) (look : Look) :
    Books lost (past ++ [⟨name, .create e.canvas.nextHandle look, true⟩]) (some name)
      (e.canvas.nextHandle.toList ++ d.held) := by
  cases hnext : e.canvas.nextHandle with
  | none => exact h.idle fun _ => Or.inl ⟨look, rfl⟩
  | some handle =>
    have hnew : ¬ Created past name handle := by
      intro hcreated
      obtain ⟨e', he', hle⟩ := hl.held.orderly.made name handle hcreated
      obtain rfl := Option.some.inj (he.symm.trans he')
      have hmade := Desk.made_of_nextHandle hnext
      omega
    exact h.create hnew (fun hdisposed => hnew (hl.held.orderly.created_of_disposed hdisposed)) look

/-- Asking for a layer loses nothing, and what it creates is held. -/
theorem books_getOrCreate (hl : Lives exact past d) (hbooks : Books lost past d.host d.held)
    (key : String) (look : Look) :
    ∃ new, (Step.after (getOrCreate key look) d).desk.calls = new ++ d.desk.calls ∧
      Books lost (past ++ (new.map d.desk.mark).reverse)
        (Step.after (getOrCreate key look) d).host (Step.after (getOrCreate key look) d).held := by
  -- no editor or a key that is known: nothing is sent
  have hnothing : ∃ new, d.desk.calls = new ++ d.desk.calls ∧
      Books lost (past ++ (new.map d.desk.mark).reverse) d.host d.held :=
    ⟨[], rfl, by simpa using hbooks⟩
  unfold getOrCreate
  rw [Step.after_bind_of_ok (Step.get_apply d)]
  split
  · exact hnothing
  next name hhost =>
    split
    · exact hnothing
    next hkey =>
      cases he : d.desk.editor? name with
      | none =>
        rw [Step.after_bind_of_ok (onDesk_create_absent he look)]
        refine ⟨[], rfl, Books.insertHandle hkey none ?_⟩
        rw [List.map_nil, List.reverse_nil, List.append_nil]
        exact hbooks
      | some e =>
        obtain ⟨desk, hreceived, -, ⟨hgrants, hcreate⟩ | ⟨hgrants, fault, hcreate⟩⟩ :=
          onDesk_create he look
        · rw [Step.after_bind_of_ok hcreate]
          refine ⟨[(name, .create e.canvas.nextHandle look)], hreceived.calls,
            Books.insertHandle hkey _ ?_⟩
          rw [hhost] at hbooks
          show Books lost (past ++ [⟨name, _, d.desk.grants name _⟩]) d.host _
          rw [hgrants, hhost]
          exact hbooks.createNext hl he look
        · rw [Step.after_bind_of_error hcreate]
          refine ⟨[(name, .create e.canvas.nextHandle look)], hreceived.calls, ?_⟩
          show Books lost (past ++ [⟨name, _, d.desk.grants name _⟩]) d.host d.held
          rw [hgrants]
          exact hbooks.idle fun hgranted => by cases hgranted

/-- Drawing neither creates nor loses a handle. -/
theorem books_render (hbooks : Books lost past d.host d.held) (key : String)
    (stretches : List Stretch) :
    ∃ new, (Step.after (render key stretches) d).desk.calls = new ++ d.desk.calls ∧
      Books lost (past ++ (new.map d.desk.mark).reverse)
        (Step.after (render key stretches) d).host (Step.after (render key stretches) d).held := by
  have hnothing : ∃ new, d.desk.calls = new ++ d.desk.calls ∧
      Books lost (past ++ (new.map d.desk.mark).reverse) d.host d.held :=
    ⟨[], rfl, by simpa using hbooks⟩
  unfold render
  rw [Step.after_bind_of_ok (Step.get_apply d)]
  split
  next name handle hhost _ =>
    cases he : d.desk.editor? name with
    | none =>
      rw [Step.after_of_ok (onDesk_send_absent he _)]
      exact hnothing
    | some e =>
      obtain ⟨desk, hreceived, hafter⟩ := after_onDesk_send he (.set handle stretches)
      rw [hafter]
      exact ⟨[(name, .set handle stretches)], hreceived.calls,
        hbooks.idle fun _ => Or.inr ⟨handle, stretches, rfl⟩⟩
  · exact hnothing

end add

/-! ## Runs -/

section run

variable {exact : Prop} {past : List Sent} {lost : String → Nat → Prop}

/-- After an event the books balance, with what the event has lost. -/
theorem Books.after_event (hl : Lives exact past d) (hbooks : Books lost past d.host d.held)
    {e : Event} (he : e ≠ .forgotten) :
    Books (fun n k => d.LostBy e n k ∨ lost n k) (past ++ d.sentBy e)
      (Step.after (perform e) d).host (Step.after (perform e) d).held := by
  by_cases hremoves : e.removes = true
  · obtain ⟨new, hdrops⟩ := drops_perform hremoves d
    rw [sentBy_eq new hdrops.calls]
    exact (hdrops.books hl hbooks).congr fun n k => by rw [lostBy_iff hremoves hdrops]
  · -- nothing is lost where nothing is removed
    have hkept : ∃ new, (Step.after (perform e) d).desk.calls = new ++ d.desk.calls ∧
        Books lost (past ++ (new.map d.desk.mark).reverse) (Step.after (perform e) d).host
          (Step.after (perform e) d).held := by
      cases e with
      | asked key look =>
        have hafter : Step.after (perform (.asked key look)) d =
            Step.after (getOrCreate key look) d := Step.after_bind_pure _ (fun _ => ()) d
        rw [hafter]
        exact books_getOrCreate hl hbooks key look
      | rendered key stretches => exact books_render hbooks key stretches
      | changedMind name refuses =>
        refine ⟨[], rfl, ?_⟩
        rw [List.map_nil, List.reverse_nil, List.append_nil]
        exact hbooks
      | forgotten => exact absurd rfl he
      | _ => exact absurd rfl hremoves
    obtain ⟨new, hcalls, hkept⟩ := hkept
    rw [sentBy_eq new hcalls]
    exact hkept.congr fun n k => or_iff_right fun hlost => hremoves hlost.1

/-- After events in which nothing is forgotten the books balance, with all that was lost on the way.
-/
theorem Books.run (hl : Lives exact past d) (hbooks : Books lost past d.host d.held)
    {events : List Event} (he : .forgotten ∉ events) :
    Books (fun n k => d.Lost events n k ∨ lost n k) (past ++ d.history events)
      (d.run events).host (d.run events).held := by
  induction events generalizing exact past lost d with
  | nil =>
    rw [history, List.append_nil]
    exact hbooks.congr fun n k => or_iff_right id
  | cons e rest ih =>
    rw [List.mem_cons, not_or] at he
    have hrest := ih (hl.after_event e) (hbooks.after_event hl (Ne.symm he.1)) he.2
    rw [List.append_assoc] at hrest
    exact hrest.congr fun n k => by rw [Lost, or_assoc, or_left_comm]

end run

/-! ## Failures -/

section failure

variable {exact : Prop} {past : List Sent} {lost : String → Nat → Prop} {name key : String}
  {handle : Nat}

/-- While keys are distinct, a pair on the books is what its key stands for. -/
theorem Lives.handle?_of_mem (h : Lives exact past d) (hmem : (key, some handle) ∈ d.handles) :
    d.handle? key = some handle := by
  obtain ⟨before, later, heq⟩ := List.append_of_mem hmem
  have hkeys : (d.handles.map (·.1)).Nodup := h.keys
  rw [heq, List.map_append, List.nodup_append] at hkeys
  refine Option.join_eq_some_iff.mpr (List.lookup_eq_some_iff.mpr ⟨before, later, heq, ?_⟩)
  intro p hp
  have hne := hkeys.2.2 p.1 (List.mem_map_of_mem hp) key (by simp)
  simpa using Ne.symm hne

/-- No two keys have one handle. -/
theorem Lives.key_unique (h : Lives exact past d) (hkey : d.handle? key = some handle)
    {key' : String} (hmem : (key', some handle) ∈ d.handles) : key' = key := by
  by_contra hne
  refine (h.held_without hkey).2.notMem (List.mem_filterMap.mpr ⟨(key', some handle), ?_, rfl⟩)
  exact List.mem_filter.mpr ⟨hmem, bne_iff_ne.mpr hne⟩

/-- The host grants every call, so that all keys can be removed. -/
theorem clear_of_granting {host : String} (hhost : d.host = some host)
    (hgrants : ∀ call, d.desk.grants host call = true) : ∃ d', clear d = .ok () d' := by
  obtain ⟨new, -, hended⟩ := removal_clear d
  generalize hresult : clear d = r at hended
  cases hended with
  | done _ d' _ => exact ⟨d', rfl⟩
  | failed fault d' hheld _ _ hrefused =>
    obtain ⟨c, -, hname, -, hrefuses⟩ := (hrefused _ _).mpr ⟨rfl, rfl⟩
    rw [hname, Option.some.inj (hheld.symm.trans hhost), hgrants] at hrefuses
    cases hrefuses

/-- Keys are removed and this fails: the handle at which it fails is the only one that is lost, and
the others that are outstanding stay under their keys. -/
theorem Books.after_failure (hl : Lives exact past d) (hbooks : Books lost past d.host d.held)
    {e : Event} (he : e.removes = true) {fault : Fault} (hfail : perform e d = .error fault d') :
    d'.host = d.host ∧
      ∃ name key handle, d.host = some name ∧ d.handle? key = some handle ∧
        Outstanding (past ++ d.sentBy e) name handle ∧ key ∉ d'.keys ∧
        (∀ n k, d.LostBy e n k ↔ n = name ∧ k = handle) ∧
        ∀ key' k, d.handle? key' = some k → Outstanding (past ++ d.sentBy e) name k →
          k ≠ handle → d'.handle? key' = some k := by
  obtain ⟨new, hdrops⟩ := drops_perform he d
  have hremoves := hdrops.failed fault d' hfail
  have hended := hdrops.ended
  have hlost := lostBy_iff he hdrops
  have hlater := hbooks.after_event hl (e := e) (by rintro rfl; cases he)
  have hlives := hl.after_event e
  rw [Step.after_of_error hfail] at hlater hlives
  rw [hfail] at hended
  cases hended with
  | failed _ _ hhost hmem hgone hrefused =>
    rename_i name key handle
    replace hlost (n : String) (k : Nat) : d.LostBy e n k ↔ n = name ∧ k = handle :=
      (hlost n k).trans (hrefused n k)
    refine ⟨hremoves.host, name, key, handle, hhost, hl.handle?_of_mem hmem, ?_, hgone, hlost, ?_⟩
    · exact (hlater.outstanding name handle).mpr (Or.inr (Or.inl ((hlost _ _).mpr ⟨rfl, rfl⟩)))
    · intro key' k hkey' hout hne
      -- the handle is not lost, neither now nor before, so some key has it, and that is its own
      rcases (hlater.outstanding name k).mp hout with ⟨-, hheld⟩ | hnow | hbefore
      · obtain ⟨⟨key'', handle'⟩, hmem', hsome⟩ := List.mem_filterMap.mp hheld
        obtain rfl : handle' = some k := hsome
        obtain rfl := hl.key_unique hkey' (hremoves.handles.subset hmem')
        exact hlives.handle?_of_mem hmem'
      · exact absurd ((hlost name k).mp hnow).2 hne
      · exact absurd hbefore (hbooks.apart name k hhost (mem_held_of_handle? hkey'))

/-- An editor grants every call again, and all keys are removed. -/
def recovery (name : String) : List Event := [.changedMind name fun _ => none, .cleared]

/-- Nothing is held after a recovery, and nothing gets lost in it. -/
private theorem after_recovery (hl : Lives exact past d) (hhost : d.host = some name)
    (hcreated : Created past name handle) :
    (d.run (recovery name)).held = [] ∧ ∀ n k, ¬ d.Lost (recovery name) n k := by
  let recovered : Decorations := Step.after (perform (.changedMind name fun _ => none)) d
  have hgrants (call : Call) : recovered.desk.grants name call = true := by
    obtain ⟨e, he, -⟩ := hl.held.orderly.made name handle hcreated
    have heditor : recovered.desk.editor? name =
        some { e with canvas := { e.canvas with refuses := fun _ => none } } := by
      show (d.desk.change name _).editor? name = _
      rw [Desk.editor?_change, if_pos rfl, he]
      rfl
    rw [Desk.grants, heditor]
    rfl
  obtain ⟨d', hclear⟩ := clear_of_granting (d := recovered) hhost hgrants
  constructor
  · show (Step.after clear recovered).held = []
    rw [Step.after_of_ok hclear, held, handles_clear hclear]
    rfl
  · rintro n k (⟨hremoves, -⟩ | hcleared | hnothing)
    · cases hremoves
    · obtain ⟨new, hdrops⟩ := drops_perform (e := .cleared) rfl recovered
      have hended := hdrops.ended
      rw [show perform .cleared recovered = .ok () d' from hclear] at hended
      cases hended with
      | done _ _ hgranted => exact hgranted n k ((lostBy_iff rfl hdrops n k).mp hcleared)
    · exact hnothing

/-- No handle gets lost when keys are removed without a failure. -/
theorem not_lostBy_of_ok {e : Event} (he : e.removes = true) (hok : perform e d = .ok () d')
    (n : String) (k : Nat) : ¬ d.LostBy e n k := by
  obtain ⟨new, hdrops⟩ := drops_perform he d
  have hended := hdrops.ended
  rw [hok] at hended
  cases hended with
  | done _ _ hgranted => rw [lostBy_iff he hdrops]; exact hgranted n k

end failure

/-- What is outstanding after events on decorations without handles and calls at first. -/
theorem books_start (desk : Desk) (host : Option String) {events : List Event}
    (hkept : .forgotten ∉ events) :
    let start : Decorations := { desk, host }
    Books (start.Lost events) (start.history events) (start.run events).host
      (start.run events).held := by
  intro start
  have hnothing : Books (fun _ _ => False) [] host [] :=
    ⟨by simp [Outstanding, Created], by simp⟩
  have hbooks := Books.run (d := start) (lives_start desk host) hnothing hkept
  exact hbooks.congr fun n k => (or_iff_left id).symm

/-- Whatever is done with decorations that hold no handles at first, on editors that may refuse any
call, as long as no handle is forgotten without a call: of the handles that are outstanding, the
ones that some key has, on the host, are those that were not lost, and every one that was lost is
outstanding. A removal that does not fail loses none. One that fails leaves the host as it is and
loses the handle of one key, at which it failed, and no other: all others that are outstanding stay
under their keys, so that after a recovery nothing is outstanding but what was lost. -/
theorem outstanding_iff (desk : Desk) (host : Option String) (events : List Event)
    (hkept : .forgotten ∉ events) :
    let start : Decorations := { desk, host }
    let d := start.run events
    let past := start.history events
    (∀ name handle, Outstanding past name handle ∧ ¬ start.Lost events name handle ↔
      d.host = some name ∧ ∃ key, d.handle? key = some handle) ∧
      (∀ name handle, start.Lost events name handle → Outstanding past name handle) ∧
      ∀ e : Event, e.removes = true →
        (∀ d', perform e d = .ok () d' → ∀ name handle, ¬ d.LostBy e name handle) ∧
        ∀ fault d', perform e d = .error fault d' →
          let past' := past ++ d.sentBy e
          d'.host = d.host ∧
            ∃ name key handle, d.host = some name ∧ d.handle? key = some handle ∧
              Outstanding past' name handle ∧ key ∉ d'.keys ∧
              (∀ n k, d.LostBy e n k ↔ n = name ∧ k = handle) ∧
              (∀ key' k, d.handle? key' = some k → Outstanding past' name k → k ≠ handle →
                d'.handle? key' = some k) ∧
              ∀ n k, Outstanding (past' ++ d'.history (recovery name)) n k ↔
                start.Lost events n k ∨ n = name ∧ k = handle := by
  intro start d past
  -- two accounts of one run: what each handle went through, and which handles are outstanding
  have hlives : Lives _ past d := (lives_start desk host).run events
  have hbooks : Books (start.Lost events) past d.host d.held := books_start desk host hkept
  refine ⟨fun name handle => ?_, fun name handle hlost => ?_, fun e he => ⟨fun d' hok => ?_,
    fun fault d' hfail => ?_⟩⟩
  · rw [hbooks.outstanding]
    constructor
    · rintro ⟨⟨hhost, hheld⟩ | hlost, hnot⟩
      · obtain ⟨⟨key, handle'⟩, hmem, hsome⟩ := List.mem_filterMap.mp hheld
        obtain rfl : handle' = some handle := hsome
        exact ⟨hhost, key, hlives.handle?_of_mem hmem⟩
      · exact absurd hlost hnot
    · rintro ⟨hhost, key, hkey⟩
      have hheld := mem_held_of_handle? hkey
      exact ⟨Or.inl ⟨hhost, hheld⟩, hbooks.apart name handle hhost hheld⟩
  · exact (hbooks.outstanding name handle).mpr (Or.inr hlost)
  · exact not_lostBy_of_ok he hok
  · obtain ⟨hhost', name, key, handle, hhost, hkey, hout, hgone, hlost, hstay⟩ :=
      hbooks.after_failure hlives he hfail
    refine ⟨hhost', name, key, handle, hhost, hkey, hout, hgone, hlost, hstay, fun n k => ?_⟩
    -- the books go on over the failure and the recovery, and close with nothing held
    have hlater := hbooks.after_event hlives (e := e) (by rintro rfl; cases he)
    have hlives' := hlives.after_event e
    rw [Step.after_of_error hfail] at hlater hlives'
    obtain ⟨hnone, hkeeps⟩ := after_recovery hlives' (hhost'.trans hhost) hout.1
    have hlasting : .forgotten ∉ recovery name := by simp [recovery]
    have hend := Books.run hlives' hlater hlasting
    rw [hnone] at hend
    rw [hend.outstanding, hlost, or_iff_right (hkeeps n k)]
    simp only [List.not_mem_nil, and_false, false_or]
    exact or_comm

/-- An editor refuses the disposal of its first handle, so that the key of this handle is gone and
the others stay; once the editor grants all calls again, this handle is all that is outstanding. -/
theorem first_handle_lost :
    let e : Editor :=
      { content := .given none [] .null
        canvas.refuses := fun call => if call = .dispose 1 then some .host else none }
    let start : Decorations := { desk := { editors := [("e", e)] }, host := some "e" }
    let events : List Event := [.asked "a" {}, .asked "b" {}]
    let d := start.run events
    ∃ d', perform .cleared d = .error .host d' ∧ d'.handle? "b" = some 2 ∧
      ∀ name handle, Outstanding (start.history events ++ d.sentBy .cleared ++
        d'.history (recovery "e")) name handle ↔ name = "e" ∧ handle = 1 := by
  intro e start events d
  obtain ⟨-, -, hremoval⟩ :=
    outstanding_iff { editors := [("e", e)] } (some "e") events (by simp [events])
  obtain ⟨-, name, key, handle, hhost, -, -, -, hlost, hstay, hend⟩ :=
    (hremoval .cleared rfl).2 .host _ rfl
  have hfirst : d.LostBy .cleared "e" 1 :=
    ⟨rfl, ⟨"e", .dispose 1, false⟩, by decide, rfl, rfl, rfl⟩
  obtain ⟨rfl, rfl⟩ := (hlost "e" 1).mp hfirst
  refine ⟨_, rfl, hstay "b" 2 rfl ⟨⟨{}, by decide⟩, by decide⟩ (by decide), fun n k => ?_⟩
  have hbefore : ¬ start.Lost events n k := by simp [events, Lost, LostBy, Event.removes]
  exact (hend n k).trans (or_iff_right hbefore)

/-- An editor refuses to empty a decoration: its key is gone, its handle was not disposed of, and it
is not disposed of either when the editor grants all calls again and all keys are removed. -/
theorem removed_before_disposal :
    let e : Editor :=
      { content := .given none [] .null
        canvas.refuses := fun call => if call = .set 1 [] then some .host else none }
    let start : Decorations := { desk := { editors := [("e", e)] }, host := some "e" }
    let d := start.run [.asked "k" {}]
    ∃ d', perform (.evicted "k") d = .error .host d' ∧ d'.handles = [] ∧
      Outstanding (start.history [.asked "k" {}, .evicted "k"]) "e" 1 ∧
      Outstanding (start.history ([.asked "k" {}, .evicted "k"] ++ recovery "e")) "e" 1 :=
  ⟨_, rfl, rfl, ⟨⟨{}, by decide⟩, by decide⟩, ⟨⟨{}, by decide⟩, by decide⟩⟩

end Decorations

end Conceal
