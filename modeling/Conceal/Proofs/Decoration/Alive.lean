import Conceal.Decoration.Cache
import Conceal.Proofs.Editor.Face
import Mathlib.Data.List.Induction
import Mathlib.Data.List.Nodup
import Mathlib.Data.List.Perm.Basic

/-!
Handles that are alive, when editors can refuse any call. A handle is alive on an editor once a call
created it there, and until it is passed to a disposal, whether or not that is granted. Handles are
accounted for when they are all different and alive on the host and calls only went to handles that
were alive; what each call leaves of that is said here once.
-/

namespace Conceal

/-- A call that was sent to an editor, and whether it was granted. -/
structure Sent where
  host : String
  call : Call
  granted : Bool
deriving DecidableEq, Repr

/-- Does a call need a handle that is alive? -/
def Call.uses (handle : Nat) : Call → Bool
  | .create _ _ => false
  | .set h _ => h = handle
  | .dispose h => h = handle

/-- Was a handle created on an editor? -/
def Created (past : List Sent) (host : String) (handle : Nat) : Prop :=
  ∃ look, ⟨host, .create (some handle) look, true⟩ ∈ past

/-- Was a handle passed to a disposal on an editor? -/
def Disposed (past : List Sent) (host : String) (handle : Nat) : Prop :=
  ∃ granted, ⟨host, .dispose handle, granted⟩ ∈ past

/-- Is a handle there to be used? -/
def Alive (past : List Sent) (host : String) (handle : Nat) : Prop :=
  Created past host handle ∧ ¬ Disposed past host handle

section past

variable {past : List Sent} {s : Sent} {host : String} {handle : Nat}

/-- One call more creates what it creates itself. -/
theorem created_snoc : Created (past ++ [s]) host handle ↔
    Created past host handle ∨ ∃ look, s = ⟨host, .create (some handle) look, true⟩ := by
  simp only [Created, List.mem_append, List.mem_singleton, exists_or, eq_comm]

/-- One call more disposes of what it disposes of itself. -/
theorem disposed_snoc : Disposed (past ++ [s]) host handle ↔
    Disposed past host handle ∨ ∃ granted, s = ⟨host, .dispose handle, granted⟩ := by
  simp only [Disposed, List.mem_append, List.mem_singleton, exists_or, eq_comm]

/-- A handle stays alive when a call is sent that does not dispose of it. -/
theorem Alive.snoc (h : Alive past host handle)
    (hs : ∀ granted, s ≠ ⟨host, .dispose handle, granted⟩) : Alive (past ++ [s]) host handle := by
  refine ⟨created_snoc.mpr (Or.inl h.1), fun hdisposed => ?_⟩
  rcases disposed_snoc.mp hdisposed with hbefore | ⟨granted, heq⟩
  · exact h.2 hbefore
  · exact hs granted heq

end past

namespace Desk

/-- Does an editor grant a call? -/
def grants (d : Desk) (name : String) (call : Call) : Bool :=
  (d.editor? name).any fun e => (e.canvas.refuses call).isNone

/-- A call to an editor, granted or not. -/
def mark (d : Desk) (c : String × Call) : Sent := ⟨c.1, c.2, d.grants c.1 c.2⟩

/-- The later desk has received a call to an editor: no handle is made twice, and the editors refuse
what they did before. -/
structure Received (d d' : Desk) (name : String) (call : Call) : Prop where
  calls : d'.calls = (name, call) :: d.calls
  grants : d'.grants = d.grants
  made : ∀ n e, d.editor? n = some e →
    ∃ e', d'.editor? n = some e' ∧ e.canvas.made ≤ e'.canvas.made

/-- The next handle is one more than the number of those that were made. -/
theorem made_of_nextHandle {c : Canvas} {handle : Nat} (h : c.nextHandle = some handle) :
    handle = c.made + 1 := by
  unfold Canvas.nextHandle at h
  split at h
  · cases h
  · exact (Option.some.inj h).symm

theorem made_le_receive (c : Canvas) (call : Call) : c.made ≤ (c.receive call).1.made := by
  unfold Canvas.receive
  split <;> cases call <;> simp [Canvas.count]

/-- What sending a call to an editor comes to, granted or not. -/
theorem send_eq {d : Desk} {name : String} {e : Editor} (he : d.editor? name = some e)
    (call : Call) :
    ∃ d', Received d d' name call ∧ d'.editor? name = some (e.receive call).1 ∧
      send name call d = match e.canvas.refuses call with
        | none => .ok () d'
        | some fault => .error fault d' := by
  have hrefusal : (e.receive call).2 = e.canvas.refuses call := by
    unfold Editor.receive Canvas.receive
    cases e.canvas.refuses call with
    | some fault => rfl
    | none => cases e.content <;> rfl
  let d' : Desk :=
    { d.change name (fun _ => (e.receive call).1) with calls := (name, call) :: d.calls }
  -- the call changes its own editor, and the others stay
  have hchange (n : String) :
      d'.editor? n = if n = name then some (e.receive call).1 else d.editor? n := by
    show (d.change name fun _ => (e.receive call).1).editor? n = _
    rw [editor?_change]
    split
    next hn => rw [hn, he]; rfl
    · rfl
  refine ⟨d', ⟨rfl, ?_, fun n e₀ he₀ => ?_⟩, (hchange name).trans (if_pos rfl), ?_⟩
  · funext n other
    rw [grants, hchange]
    split
    next hn =>
      rw [grants, hn, he, Option.any_some, Option.any_some, e.canvas_receive,
        Canvas.refuses_receive]
    · rfl
  · rw [hchange]
    split
    next hn =>
      rw [hn, he] at he₀
      rw [← Option.some.inj he₀]
      exact ⟨_, rfl, e.canvas_receive call ▸ made_le_receive e.canvas call⟩
    · exact ⟨e₀, he₀, Nat.le_refl _⟩
  · simp only [send, he, ← hrefusal]
    cases (e.receive call).2 <;> rfl

end Desk

/-- Calls only go to handles that are alive, and no editor has made fewer handles than were created
on it. -/
structure Orderly (past : List Sent) (desk : Desk) : Prop where
  made : ∀ host handle, Created past host handle →
    ∃ e, desk.editor? host = some e ∧ handle ≤ e.canvas.made
  used : ∀ before s later, past = before ++ s :: later →
    ∀ handle, s.call.uses handle = true → Alive before s.host handle

namespace Orderly

variable {past : List Sent} {desk desk' : Desk}

/-- Only what was created is disposed of. -/
theorem created_of_disposed (h : Orderly past desk) {host : String} {handle : Nat}
    (hdisposed : Disposed past host handle) : Created past host handle := by
  obtain ⟨granted, hmem⟩ := hdisposed
  obtain ⟨before, later, heq⟩ := List.append_of_mem hmem
  obtain ⟨look, hcreated⟩ := (h.used before _ later heq handle (by simp [Call.uses])).1
  exact ⟨look, heq ▸ List.mem_append_left _ hcreated⟩

/-- The editors may change in any way that does not make them forget what they have made. -/
theorem of_made_le (h : Orderly past desk)
    (hmade : ∀ n e, desk.editor? n = some e →
      ∃ e', desk'.editor? n = some e' ∧ e.canvas.made ≤ e'.canvas.made) :
    Orderly past desk' where
  made host handle hcreated := by
    obtain ⟨e, he, hle⟩ := h.made host handle hcreated
    obtain ⟨e', he', hle'⟩ := hmade host e he
    exact ⟨e', he', Nat.le_trans hle hle'⟩
  used := h.used

/-- One more call to a handle that is alive, or to make a new one. -/
theorem snoc (h : Orderly past desk) {name : String} {call : Call}
    (hreceived : desk.Received desk' name call)
    (huses : ∀ handle, call.uses handle = true → Alive past name handle)
    (hmade : ∀ handle look, call = .create (some handle) look →
      ∃ e, desk'.editor? name = some e ∧ handle ≤ e.canvas.made) (granted : Bool) :
    Orderly (past ++ [⟨name, call, granted⟩]) desk' where
  made host handle hcreated := by
    rcases created_snoc.mp hcreated with hbefore | ⟨look, heq⟩
    · exact (h.of_made_le hreceived.made).made host handle hbefore
    · obtain ⟨rfl, rfl, rfl⟩ := Sent.mk.inj heq
      exact hmade handle look rfl
  used before s later heq handle hs := by
    -- the call is the new one, or one of those before it
    rcases List.eq_nil_or_concat later with rfl | ⟨later, last, rfl⟩
    · obtain ⟨rfl, hlast⟩ := List.append_inj' heq rfl
      obtain rfl := List.head_eq_of_cons_eq hlast
      exact huses handle hs
    · rw [List.concat_eq_append, ← List.cons_append, ← List.append_assoc] at heq
      exact h.used before s later (List.append_inj' heq rfl).1 handle hs

/-- A handle is passed to a disposal at most once. -/
theorem disposed_once (h : Orderly past desk) (host : String) (handle : Nat) :
    (past.filter fun s => s.host = host ∧ s.call = .dispose handle).length ≤ 1 := by
  have hused := h.used
  clear h
  induction past using List.reverseRecOn with
  | nil => exact Nat.zero_le 1
  | append_singleton past s ih =>
    have hbefore := ih fun before s' later heq =>
      hused before s' (later ++ [s]) (by rw [heq, List.append_assoc]; rfl)
    rw [List.filter_append, List.length_append]
    by_cases hs : s.host = host ∧ s.call = .dispose handle
    · -- before the last disposal there was none
      obtain ⟨rfl, hcall⟩ := hs
      have halive := hused past s [] rfl handle (by simp [hcall, Call.uses])
      have hnone : past.filter (fun s' => s'.host = s.host ∧ s'.call = .dispose handle) = [] := by
        rw [List.filter_eq_nil_iff]
        intro s' hs' heq
        obtain ⟨hhost, hcall'⟩ := of_decide_eq_true heq
        refine halive.2 ⟨s'.granted, ?_⟩
        rw [← hhost, ← hcall']
        exact hs'
      rw [hnone, List.length_nil, Nat.zero_add]
      exact List.length_filter_le _ [s]
    · simpa [hs] using hbefore

end Orderly

namespace Decorations

/-- The handles that are held. -/
def held (d : Decorations) : List Nat := d.handles.filterMap (·.2)

section handles

variable {handles : List (String × Option Nat)} {key : String}

/-- A key that is new comes last; one that is there keeps its place. -/
theorem keys_insertHandle (handles : List (String × Option Nat)) (key : String)
    (handle : Option Nat) : (insertHandle handles key handle).map (·.1) =
      if key ∈ handles.map (·.1) then handles.map (·.1) else handles.map (·.1) ++ [key] := by
  induction handles with
  | nil => simp [insertHandle]
  | cons s rest ih =>
    rw [insertHandle]
    split
    next heq => simp [heq]
    next hne =>
      simp only [List.map_cons, ih, List.mem_cons, Ne.symm hne, false_or]
      split <;> rfl

/-- A key without a handle gets one: it is held beside all others. -/
theorem perm_insertHandle (hnone : (handles.lookup key).join = none) (handle : Option Nat) :
    ((insertHandle handles key handle).filterMap (·.2)).Perm
      (handle.toList ++ handles.filterMap (·.2)) := by
  induction handles with
  | nil => cases handle <;> simp [insertHandle]
  | cons s rest ih =>
    obtain ⟨k, v⟩ := s
    rw [insertHandle]
    split
    next heq =>
      subst heq
      have hv : v = none := by simpa using hnone
      subst hv
      cases handle <;> simp
    next hne =>
      have hrest : (rest.lookup key).join = none := by
        rwa [List.lookup_cons, beq_eq_false_iff_ne.mpr (Ne.symm hne)] at hnone
      cases v with
      | none => simpa using ih hrest
      | some h =>
        cases handle with
        | none => simpa using ih hrest
        | some h' =>
          have hrest := (ih hrest).cons h
          simpa using hrest.trans (List.Perm.swap h' h _)

/-- Removing a key removes its handle. -/
theorem perm_filter_ne (hkeys : (handles.map (·.1)).Nodup) (key : String) :
    (handles.filterMap (·.2)).Perm
      ((handles.lookup key).join.toList ++ (handles.filter (·.1 != key)).filterMap (·.2)) := by
  induction handles with
  | nil => simp
  | cons s rest ih =>
    obtain ⟨k, v⟩ := s
    rw [List.map_cons, List.nodup_cons] at hkeys
    by_cases heq : k = key
    · subst heq
      -- no later entry has the key again
      have hsame : rest.filter (·.1 != k) = rest :=
        List.filter_eq_self.mpr fun s hs => bne_iff_ne.mpr fun heq =>
          hkeys.1 (List.mem_map.mpr ⟨s, hs, heq⟩)
      cases v <;> simp [hsame]
    · have hne : (key == k) = false := beq_eq_false_iff_ne.mpr (Ne.symm heq)
      have hbne : (k != key) = true := bne_iff_ne.mpr heq
      have hrest := ih hkeys.2
      rw [List.lookup_cons, hne, List.filter_cons_of_pos (by exact hbne)]
      cases v with
      | none => simpa using hrest
      | some h =>
        simp only [List.filterMap_cons]
        exact (hrest.cons h).trans List.perm_middle.symm

end handles

section known

variable {d : Decorations} {key : String} {handle : Nat}

theorem mem_handles_of_handle? (h : d.handle? key = some handle) :
    (key, some handle) ∈ d.handles := by
  obtain ⟨before, rest, heq, _⟩ := List.lookup_eq_some_iff.mp (Option.join_eq_some_iff.mp h)
  rw [heq]
  simp

theorem mem_keys_of_handle? (h : d.handle? key = some handle) : key ∈ d.keys :=
  List.mem_map_of_mem (mem_handles_of_handle? h)

theorem mem_held_of_handle? (h : d.handle? key = some handle) : handle ∈ d.held :=
  List.mem_filterMap.mpr ⟨(key, some handle), mem_handles_of_handle? h, rfl⟩

end known

/-! ## Handles that are accounted for -/

/-- Handles are all different and alive on the host, and, where that can be said, no other handle is
alive anywhere. -/
structure Accounted (exact : Prop) (past : List Sent) (host : Option String) (handles : List Nat)
    (desk : Desk) : Prop where
  distinct : handles.Nodup
  alive : ∀ handle ∈ handles, ∃ name, host = some name ∧ Alive past name handle
  orderly : Orderly past desk
  complete : exact → ∀ name handle, Alive past name handle → host = some name ∧ handle ∈ handles

namespace Accounted

variable {exact : Prop} {past : List Sent} {name : String} {handles : List Nat}
  {handle : Nat} {desk desk' : Desk}

/-- Accounts that are exact under one condition are exact under a stronger one. -/
theorem mono {exact' : Prop} {host : Option String} (h : Accounted exact past host handles desk)
    (hexact : exact' → exact) : Accounted exact' past host handles desk :=
  ⟨h.distinct, h.alive, h.orderly, fun hexact' => h.complete (hexact hexact')⟩

/-- The order of the handles does not matter. -/
theorem perm {host : Option String} {handles' : List Nat}
    (h : Accounted exact past host handles desk) (hperm : handles'.Perm handles) :
    Accounted exact past host handles' desk where
  distinct := hperm.nodup_iff.mpr h.distinct
  alive k hk := h.alive k (hperm.mem_iff.mp hk)
  orderly := h.orderly
  complete hexact n k hk := by
    rw [hperm.mem_iff]
    exact h.complete hexact n k hk

/-- A handle is given up without a call; then it cannot be said that no other handle is alive. -/
theorem drop {host : Option String} (h : Accounted exact past host (handle :: handles) desk) :
    Accounted False past host handles desk :=
  ⟨h.distinct.of_cons, fun k hk => h.alive k (List.mem_cons_of_mem _ hk), h.orderly, False.elim⟩

/-- Where there are no handles, the host does not matter. -/
theorem of_nil {host : Option String} (h : Accounted exact past host [] desk)
    (host' : Option String) : Accounted exact past host' [] desk :=
  ⟨h.distinct, by simp, h.orderly, fun hexact n k hk => by
    cases (h.complete hexact n k hk).2⟩

/-- A handle that is on the books is alive. -/
theorem alive_of_mem (h : Accounted exact past (some name) handles desk) (hmem : handle ∈ handles) :
    Alive past name handle := by
  obtain ⟨n, heq, halive⟩ := h.alive handle hmem
  rwa [Option.some.inj heq]

/-- A handle is given stretches. -/
theorem set (h : Accounted exact past (some name) handles desk) (hmem : handle ∈ handles)
    {stretches : List Stretch} (hreceived : desk.Received desk' name (.set handle stretches))
    (granted : Bool) :
    Accounted exact (past ++ [⟨name, .set handle stretches, granted⟩]) (some name) handles
      desk' where
  distinct := h.distinct
  alive k hk := ⟨name, rfl, (h.alive_of_mem hk).snoc (by simp)⟩
  orderly := h.orderly.snoc hreceived
    (fun k hk => of_decide_eq_true hk ▸ h.alive_of_mem hmem) (by simp) granted
  complete hexact n k hk := by
    refine h.complete hexact n k ⟨?_, fun hdisposed => hk.2 (disposed_snoc.mpr (Or.inl hdisposed))⟩
    exact (created_snoc.mp hk.1).resolve_right (by simp)

/-- A handle is disposed of, or at least passed to a disposal. -/
theorem dispose (h : Accounted exact past (some name) (handle :: handles) desk)
    (hreceived : desk.Received desk' name (.dispose handle)) (granted : Bool) :
    Accounted exact (past ++ [⟨name, .dispose handle, granted⟩]) (some name) handles desk' where
  distinct := h.distinct.of_cons
  alive k hk := by
    refine ⟨name, rfl, (h.alive_of_mem (List.mem_cons_of_mem _ hk)).snoc fun g heq => ?_⟩
    obtain ⟨_, heq, _⟩ := Sent.mk.inj heq
    exact h.distinct.notMem (Call.dispose.inj heq ▸ hk)
  orderly := h.orderly.snoc hreceived
    (fun k hk => of_decide_eq_true hk ▸ h.alive_of_mem List.mem_cons_self) (by simp) granted
  complete hexact n k hk := by
    have hcreated := (created_snoc.mp hk.1).resolve_right (by simp)
    obtain ⟨hname, hmem⟩ := h.complete hexact n k
      ⟨hcreated, fun hdisposed => hk.2 (disposed_snoc.mpr (Or.inl hdisposed))⟩
    refine ⟨hname, (List.mem_cons.mp hmem).resolve_left ?_⟩
    rintro rfl
    exact hk.2 (disposed_snoc.mpr (Or.inr ⟨granted, by rw [Option.some.inj hname]⟩))

/-- Nothing is created, because the call is refused or the editor keeps the handle to itself. -/
theorem skip {host : Option String} (h : Accounted exact past host handles desk) {look : Look}
    {made : Option Nat} (hreceived : desk.Received desk' name (.create made look))
    (hmade : ∀ k, made = some k → ∃ e, desk'.editor? name = some e ∧ k ≤ e.canvas.made)
    (granted : Bool) (hnone : granted = true → made = none) :
    Accounted exact (past ++ [⟨name, .create made look, granted⟩]) host handles desk' where
  distinct := h.distinct
  alive k hk := by
    obtain ⟨n, heq, halive⟩ := h.alive k hk
    exact ⟨n, heq, halive.snoc (by simp)⟩
  orderly := h.orderly.snoc hreceived (by simp [Call.uses])
    (fun k _ heq => hmade k (Call.create.inj heq).1) granted
  complete hexact n k hk := by
    refine h.complete hexact n k ⟨?_, fun hdisposed => hk.2 (disposed_snoc.mpr (Or.inl hdisposed))⟩
    refine (created_snoc.mp hk.1).resolve_right ?_
    rintro ⟨_, heq⟩
    obtain ⟨_, hcreate, hgranted⟩ := Sent.mk.inj heq
    have := hnone hgranted
    rw [(Call.create.inj hcreate).1] at this
    cases this

/-- A new handle is created. -/
theorem create (h : Accounted exact past (some name) handles desk) {look : Look} {e : Editor}
    (he : desk.editor? name = some e) (hnew : handle = e.canvas.made + 1)
    (hreceived : desk.Received desk' name (.create (some handle) look))
    (hmade : ∃ e', desk'.editor? name = some e' ∧ handle ≤ e'.canvas.made) :
    Accounted exact (past ++ [⟨name, .create (some handle) look, true⟩]) (some name)
      (handle :: handles) desk' := by
  have hfresh : ¬ Created past name handle := by
    intro hcreated
    obtain ⟨e', he', hle⟩ := h.orderly.made name handle hcreated
    obtain rfl := Option.some.inj (he.symm.trans he')
    omega
  refine ⟨List.nodup_cons.mpr ⟨fun hmem => hfresh (h.alive_of_mem hmem).1, h.distinct⟩,
    fun k hk => ⟨name, rfl, ?_⟩, ?_, fun hexact n k hk => ?_⟩
  · rcases List.mem_cons.mp hk with rfl | hk
    · refine ⟨created_snoc.mpr (Or.inr ⟨look, rfl⟩), fun hdisposed => ?_⟩
      have hbefore := (disposed_snoc.mp hdisposed).resolve_right (by simp)
      exact hfresh (h.orderly.created_of_disposed hbefore)
    · exact (h.alive_of_mem hk).snoc (by simp)
  · refine h.orderly.snoc hreceived (by simp [Call.uses]) (fun k look' heq => ?_) true
    rw [← Option.some.inj (Call.create.inj heq).1]
    exact hmade
  · have hnot : ¬ Disposed past n k := fun hdisposed => hk.2 (disposed_snoc.mpr (Or.inl hdisposed))
    rcases created_snoc.mp hk.1 with hcreated | ⟨look', heq⟩
    · obtain ⟨hname, hmem⟩ := h.complete hexact n k ⟨hcreated, hnot⟩
      exact ⟨hname, List.mem_cons_of_mem _ hmem⟩
    · obtain ⟨rfl, hcreate, _⟩ := Sent.mk.inj heq
      obtain rfl := Option.some.inj (Call.create.inj hcreate).1
      exact ⟨rfl, List.mem_cons_self⟩

/-- A decoration is created; an editor that keeps its handles to itself gives none. -/
theorem createNext (h : Accounted exact past (some name) handles desk) {look : Look} {e : Editor}
    (he : desk.editor? name = some e)
    (hreceived : desk.Received desk' name (.create e.canvas.nextHandle look))
    (hmade : ∀ k, e.canvas.nextHandle = some k →
      ∃ e', desk'.editor? name = some e' ∧ k ≤ e'.canvas.made) :
    Accounted exact (past ++ [⟨name, .create e.canvas.nextHandle look, true⟩]) (some name)
      (e.canvas.nextHandle.toList ++ handles) desk' := by
  cases hnext : e.canvas.nextHandle with
  | none =>
    rw [hnext] at hreceived
    exact h.skip hreceived (by simp) true fun _ => rfl
  | some k =>
    rw [hnext] at hreceived
    exact h.create he (Desk.made_of_nextHandle hnext) hreceived (hmade k hnext)

end Accounted

end Decorations

end Conceal
