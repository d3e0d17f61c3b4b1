import JsonLayout.Datum.Conversion
import JsonLayout.Proofs.Members
import Mathlib.Logic.Function.Basic

/-!
# Filling lists and dicts

A list or a dict stands in the one around it before it has its own parts, and those that wait are
filled in another order than the one in which they stand.  What carries the conversion through is a
promise: every draft, with the parts that are still owed to it, comes to certain data.  A step adds
a part to one draft and makes another one at most, and both keep what was promised; when nothing is
owed any more, the data read off are those.

## Main definitions

* `Datum.plain`: the plain data of a JSON value, by recursion.
* `Datum.Promises`: what the drafts come to.
* `Datum.owedBy`, `Datum.owedBefore`: the parts that drafts still wait for.

## Main results

* `Datum.Promises.set`, `Datum.Promises.push`: the two changes that a step makes.
* `Datum.Promises.add`, `Datum.Promises.run`: a step and a whole run keep the promises.
* `Datum.readAll_eq`: what is read off when nothing is owed.
* `Datum.readAll_of_run`: a run that ends gives the plain data by recursion.
-/

namespace JsonLayout

/-! ### Drafts -/

theorem Members.map_put {α β : Type} (f : α → β) (table : Members α) (key : Text) (a : α) :
    (table.put key a).map (fun m => (m.1, f m.2))
      = put (table.map fun m => (m.1, f m.2)) key (f a) := by
  induction table with
  | nil => rfl
  | cons m table ih =>
    rw [put, List.map_cons, put]
    split
    · rfl
    · rw [List.map_cons, ih]

theorem Members.mem_map_put {α : Type} {table : Members α} {key : Text} {a b : α}
    (h : b ∈ (table.put key a).map (·.2)) : b = a ∨ b ∈ table.map (·.2) := by
  induction table with
  | nil => exact .inl (List.mem_singleton.mp h)
  | cons m table ih =>
    rw [put] at h
    split at h
    · rcases List.mem_cons.mp h with rfl | h
      · exact .inl rfl
      · exact .inr (List.mem_cons_of_mem _ h)
    · rcases List.mem_cons.mp h with rfl | h
      · exact .inr (List.mem_cons_self ..)
      · exact (ih h).imp_right (List.mem_cons_of_mem _)

namespace Draft

variable {α β : Type}

/-- What stands in a draft. -/
def parts : Draft α → List α
  | .list items => items
  | .dict entries => entries.map (·.2)

/-- A draft with parts added one after another. -/
def addAll (draft : Draft α) (parts : List (Text × α)) : Draft α :=
  parts.foldl (fun draft p => draft.add p.1 p.2) draft

theorem addAll_cons (draft : Draft α) (p : Text × α) (parts : List (Text × α)) :
    draft.addAll (p :: parts) = (draft.add p.1 p.2).addAll parts := rfl

theorem addAll_list (items : List α) (parts : List (Text × α)) :
    (list items).addAll parts = list ((parts.map (·.2)).reverse ++ items) := by
  induction parts generalizing items with
  | nil => rfl
  | cons p parts ih =>
    rw [addAll_cons, add, ih, List.map_cons, List.reverse_cons, List.append_assoc,
      List.singleton_append]

theorem addAll_dict (table : Members α) (parts : List (Text × α)) :
    (dict table).addAll parts = dict (parts.foldl (fun table m => table.put m.1 m.2) table) := by
  induction parts generalizing table with
  | nil => rfl
  | cons p parts ih => rw [addAll_cons, add, ih, List.foldl_cons]

theorem parts_opening (d : Datum) : (opening d : Draft α).parts = [] := by
  cases d <;> rfl

theorem mem_parts_add {draft : Draft α} {key : Text} {a b : α} (h : b ∈ (draft.add key a).parts) :
    b = a ∨ b ∈ draft.parts := by
  cases draft with
  | list items => exact List.mem_cons.mp h
  | dict entries => exact Members.mem_map_put h

theorem map_opening (f : α → β) (d : Datum) : (opening d).map f = opening d := by
  cases d <;> rfl

theorem map_add (f : α → β) (draft : Draft α) (key : Text) (a : α) :
    (draft.add key a).map f = (draft.map f).add key (f a) := by
  cases draft with
  | list items => rfl
  | dict entries => rw [add, map, Members.map_put, map, add]

theorem map_congr {f g : α → β} {draft : Draft α} (h : ∀ a ∈ draft.parts, f a = g a) :
    draft.map f = draft.map g := by
  cases draft with
  | list items =>
    rw [parts] at h
    rw [map, map, List.map_congr_left h]
  | dict entries =>
    rw [parts, List.forall_mem_map] at h
    rw [map, map, List.map_congr_left fun m hm => by rw [h m hm]]

end Draft

namespace Datum

/-! ### The plain data by recursion -/

mutual

/-- **The plain data of a JSON value.**  A number gives what it holds, and an object has each key
once, at its first place and with its last value.  Plain data stay. -/
def plain : Datum → Datum
  | .null => .nothing
  | .boolean b => .bool b
  | .number payload => payload
  | .string s => .str s
  | .array items => .list (plainItems items)
  | .object members => .dict ((plainMembers members).latest.map fun m => (.str m.1, m.2))
  | d => d

/-- The plain data of items. -/
def plainItems : List Datum → List Datum
  | [] => []
  | d :: items => d.plain :: plainItems items

/-- The plain data of members, repeated keys included. -/
def plainMembers : List (Text × Datum) → Members Datum
  | [] => []
  | (key, d) :: members => (key, d.plain) :: plainMembers members

end

theorem plainItems_eq_map (items : List Datum) : plainItems items = items.map plain := by
  induction items with
  | nil => rfl
  | cons d items ih => rw [plainItems, ih, List.map_cons]

theorem plainMembers_eq_map (members : List (Text × Datum)) :
    plainMembers members = members.map fun m => (m.1, m.2.plain) := by
  induction members with
  | nil => rfl
  | cons m members ih => rw [plainMembers, ih, List.map_cons]

theorem plain_of_plainScalar {d p : Datum} (h : d.plainScalar = .ok p) : d.plain = p := by
  cases d <;> cases h <;> rfl

/-- An empty draft comes to the plain data of a container when all parts are added. -/
theorem toDatum_addAll_opening {c : Datum} (hc : c.isContainer = true) :
    ((Draft.opening c).addAll (c.keyedParts.map fun p => (p.1, p.2.plain))).toDatum = c.plain := by
  cases c with
  | array items =>
    have hopening : (Draft.opening (.array items) : Draft Datum) = .list [] := rfl
    rw [hopening, Draft.addAll_list, Draft.toDatum, plain, plainItems_eq_map]
    simp [keyedParts, Function.comp_def]
  | object members =>
    rw [Draft.opening, Draft.addAll_dict, Members.foldl_put, Draft.toDatum, plain,
      plainMembers_eq_map, keyedParts]
  | _ => exact absurd hc Bool.false_ne_true

/-! ### Promises -/

/-- **What the drafts come to**: each of them to the data that its number has, once the parts that
are owed to it are added. -/
structure Promises (drafts : Array (Draft Slot)) (data : Nat → Datum)
    (owed : Nat → List (Text × Datum)) : Prop where
  /-- A draft with the parts that are owed to it comes to its data. -/
  comes : ∀ n draft, drafts[n]? = some draft →
    ((draft.map (Slot.read data)).addAll ((owed n).map fun p => (p.1, p.2.plain))).toDatum = data n
  /-- A draft refers to later ones, and to none that is not made yet. -/
  later : ∀ n draft, drafts[n]? = some draft → ∀ m, Slot.draft m ∈ draft.parts →
    n < m ∧ m < drafts.size
  /-- Nothing is owed to a draft that is not made yet. -/
  beyond : ∀ n, drafts.size ≤ n → owed n = []

/-- **Promises that are kept**: there may be more drafts now, but each of those before comes to the
data that it came to. -/
structure Keeps (drafts : Array (Draft Slot)) (data : Nat → Datum) (drafts' : Array (Draft Slot))
    (data' : Nat → Datum) : Prop where
  size_le : drafts.size ≤ drafts'.size
  data_eq : ∀ n, n < drafts.size → data' n = data n

theorem Keeps.trans {drafts drafts' drafts'' : Array (Draft Slot)} {data data' data'' : Nat → Datum}
    (h : Keeps drafts data drafts' data') (h' : Keeps drafts' data' drafts'' data'') :
    Keeps drafts data drafts'' data'' :=
  ⟨Nat.le_trans h.size_le h'.size_le, fun n hn =>
    (h'.data_eq n (Nat.lt_of_lt_of_le hn h.size_le)).trans (h.data_eq n hn)⟩

namespace Promises

variable {drafts : Array (Draft Slot)} {data : Nat → Datum} {owed : Nat → List (Text × Datum)}

/-- **A part is added** to a draft, and no longer owed. -/
theorem set (h : Promises drafts data owed) {target : Nat} {part : Text × Datum}
    {parts : List (Text × Datum)} {slot : Slot} (howed : owed target = part :: parts)
    (hslot : slot.read data = part.2.plain)
    (hlater : ∀ m, slot = .draft m → target < m ∧ m < drafts.size) :
    Promises (drafts.modify target (.add part.1 slot)) data
      (Function.update owed target parts) := by
  refine ⟨fun n draft hn => ?_, fun n draft hn m hm => ?_, fun n hn => ?_⟩
  · rw [Array.getElem?_modify] at hn
    by_cases htarget : target = n
    · subst htarget
      rw [if_pos rfl] at hn
      obtain ⟨before, hbefore, rfl⟩ := Option.map_eq_some_iff.mp hn
      have hcomes := h.comes target before hbefore
      rw [howed, List.map_cons, Draft.addAll_cons] at hcomes
      rw [Draft.map_add, hslot, Function.update_self]
      exact hcomes
    · rw [if_neg htarget] at hn
      rw [Function.update_of_ne (Ne.symm htarget)]
      exact h.comes n draft hn
  · rw [Array.size_modify]
    rw [Array.getElem?_modify] at hn
    by_cases htarget : target = n
    · subst htarget
      rw [if_pos rfl] at hn
      obtain ⟨before, hbefore, rfl⟩ := Option.map_eq_some_iff.mp hn
      rcases Draft.mem_parts_add hm with hm | hm
      · exact hlater m hm.symm
      · exact h.later target before hbefore m hm
    · rw [if_neg htarget] at hn
      exact h.later n draft hn m hm
  · rw [Array.size_modify] at hn
    have htarget : n ≠ target := by
      rintro rfl
      exact List.cons_ne_nil _ _ (howed.symm.trans (h.beyond n hn))
    rw [Function.update_of_ne htarget]
    exact h.beyond n hn

/-- **A draft is made** for a container, of which all parts are owed to it. -/
theorem push (h : Promises drafts data owed) {c : Datum} (hc : c.isContainer = true) :
    Promises (drafts.push (.opening c)) (Function.update data drafts.size c.plain)
      (Function.update owed drafts.size c.keyedParts) := by
  refine ⟨fun n draft hn => ?_, fun n draft hn m hm => ?_, fun n hn => ?_⟩
  · rw [Array.getElem?_push] at hn
    by_cases hsize : n = drafts.size
    · subst hsize
      rw [if_pos rfl, Option.some.injEq] at hn
      subst hn
      rw [Draft.map_opening, Function.update_self, Function.update_self,
        toDatum_addAll_opening hc]
    · rw [if_neg hsize] at hn
      -- no draft refers to the new one yet
      have hread : draft.map (Slot.read (Function.update data drafts.size c.plain))
          = draft.map (Slot.read data) := by
        refine Draft.map_congr fun slot hslot => ?_
        cases slot with
        | data d => rfl
        | draft m => exact Function.update_of_ne (Nat.ne_of_lt (h.later n draft hn m hslot).2) _ _
      rw [hread, Function.update_of_ne hsize, Function.update_of_ne hsize]
      exact h.comes n draft hn
  · rw [Array.size_push]
    rw [Array.getElem?_push] at hn
    by_cases hsize : n = drafts.size
    · rw [if_pos hsize, Option.some.injEq] at hn
      subst hn
      rw [Draft.parts_opening] at hm
      cases hm
    · rw [if_neg hsize] at hn
      obtain ⟨hnm, hmsize⟩ := h.later n draft hn m hm
      exact ⟨hnm, Nat.lt_succ_of_lt hmsize⟩
  · rw [Array.size_push] at hn
    rw [Function.update_of_ne (by omega)]
    exact h.beyond n (by omega)

end Promises

/-! ### A run -/

/-- The parts that a draft waits for. -/
def owedBy (waiting : List (Datum × Nat)) (n : Nat) : List (Text × Datum) :=
  waiting.flatMap fun w => if w.2 = n then w.1.keyedParts else []

theorem owedBy_cons (w : Datum × Nat) (waiting : List (Datum × Nat)) (n : Nat) :
    owedBy (w :: waiting) n = (if n = w.2 then w.1.keyedParts else []) ++ owedBy waiting n := by
  rw [owedBy, List.flatMap_cons, ← owedBy]
  simp only [eq_comm]

/-- The parts that are owed while the container of one draft is gone through: first those that are
left of it, and then those of the containers that wait. -/
def owedBefore (target : Nat) (parts : List (Text × Datum)) (waiting : List (Datum × Nat))
    (n : Nat) : List (Text × Datum) :=
  (if n = target then parts else []) ++ owedBy waiting n

variable {filling next : Filling} {data : Nat → Datum} {target : Nat}
  {parts : List (Text × Datum)} {part : Text × Datum} {waiting : List (Datum × Nat)}

theorem owedBefore_self (target : Nat) (parts : List (Text × Datum))
    (waiting : List (Datum × Nat)) :
    owedBefore target parts waiting target = parts ++ owedBy waiting target := by
  rw [owedBefore, if_pos rfl]

/-- What is owed when a part has been added. -/
theorem owedBefore_eq_update (part : Text × Datum) :
    owedBefore target parts waiting
      = Function.update (owedBefore target (part :: parts) waiting) target
          (parts ++ owedBy waiting target) := by
  funext n
  by_cases hn : n = target
  · rw [hn, owedBefore_self, Function.update_self]
  · rw [Function.update_of_ne hn, owedBefore, owedBefore, if_neg hn, if_neg hn]

/-- What is owed when a part has been added for which a draft is made. -/
theorem owedBefore_eq_update_update (part : Text × Datum) (child : Datum × Nat)
    (hne : child.2 ≠ target) (hchild : owedBy waiting child.2 = []) :
    owedBefore target parts (child :: waiting)
      = Function.update (Function.update (owedBefore target (part :: parts) waiting) child.2
          child.1.keyedParts) target (parts ++ owedBy waiting target) := by
  funext n
  by_cases hn : n = target
  · rw [hn, owedBefore_self, Function.update_self, owedBy_cons, if_neg hne.symm, List.nil_append]
  · rw [Function.update_of_ne hn, owedBefore, if_neg hn, List.nil_append, owedBy_cons]
    by_cases hc : n = child.2
    · rw [hc, if_pos rfl, Function.update_self, hchild, List.append_nil]
    · rw [if_neg hc, Function.update_of_ne hc, owedBefore, if_neg hn]

/-- **A step** keeps the promises. -/
theorem Promises.add
    (h : Promises filling.drafts data (owedBefore target (part :: parts) filling.waiting))
    (hadd : filling.add target part = .ok next) :
    ∃ data', Keeps filling.drafts data next.drafts data' ∧
      Promises next.drafts data' (owedBefore target parts next.waiting) := by
  have htarget : target < filling.drafts.size := by
    refine Nat.lt_of_not_le fun hle => ?_
    have hnil := h.beyond target hle
    rw [owedBefore_self] at hnil
    cases hnil
  rw [Filling.add] at hadd
  split at hadd
  · next hc =>
    cases hadd
    have hne : filling.drafts.size ≠ target := Nat.ne_of_gt htarget
    have hnone : owedBy filling.waiting filling.drafts.size = [] := by
      have hnil := h.beyond _ (Nat.le_refl _)
      rwa [owedBefore, if_neg hne, List.nil_append] at hnil
    have howed : Function.update (owedBefore target (part :: parts) filling.waiting)
        filling.drafts.size part.2.keyedParts target
          = part :: (parts ++ owedBy filling.waiting target) := by
      rw [Function.update_of_ne hne.symm, owedBefore_self, List.cons_append]
    have hlater : ∀ m, Slot.draft filling.drafts.size = .draft m →
        target < m ∧ m < (filling.drafts.push (.opening part.2)).size := by
      rintro m ⟨⟩
      rw [Array.size_push]
      omega
    refine ⟨Function.update data filling.drafts.size part.2.plain, ⟨?_, fun n hn => ?_⟩, ?_⟩
    · rw [Array.size_modify, Array.size_push]
      exact Nat.le_succ _
    · exact Function.update_of_ne (Nat.ne_of_lt hn) _ _
    rw [owedBefore_eq_update_update part (part.2, filling.drafts.size) hne hnone]
    exact (h.push hc).set howed (Function.update_self ..) hlater
  · next hc =>
    cases hd : part.2.plainScalar with
    | error e => simp [hd, bind, Except.bind] at hadd
    | ok d =>
      simp only [hd, bind, Except.bind, pure, Except.pure, Except.ok.injEq] at hadd
      subst hadd
      have howed : owedBefore target (part :: parts) filling.waiting target
          = part :: (parts ++ owedBy filling.waiting target) := by
        rw [owedBefore_self, List.cons_append]
      refine ⟨data, ⟨Nat.le_of_eq Array.size_modify.symm, fun n hn => rfl⟩, ?_⟩
      rw [owedBefore_eq_update part]
      exact h.set howed (plain_of_plainScalar hd).symm fun m hm => by cases hm

/-- The parts of one container, one step after another. -/
theorem Promises.foldlM
    (h : Promises filling.drafts data (owedBefore target parts filling.waiting))
    (hadd : parts.foldlM (Filling.add target) filling = .ok next) :
    ∃ data', Keeps filling.drafts data next.drafts data' ∧
      Promises next.drafts data' (owedBy next.waiting) := by
  induction parts generalizing filling data with
  | nil =>
    cases hadd
    have howed : owedBefore target [] next.waiting = owedBy next.waiting := by
      funext n
      rw [owedBefore, ite_self, List.nil_append]
    exact ⟨data, ⟨Nat.le_refl _, fun n hn => rfl⟩, howed ▸ h⟩
  | cons part parts ih =>
    rw [List.foldlM_cons] at hadd
    cases hstep : filling.add target part with
    | error e =>
      rw [hstep] at hadd
      cases hadd
    | ok after =>
      rw [hstep] at hadd
      obtain ⟨data', hkeeps, hafter⟩ := h.add hstep
      obtain ⟨data'', hkeeps', hnext⟩ := ih hafter hadd
      exact ⟨data'', hkeeps.trans hkeeps', hnext⟩

/-- **A run** keeps the promises until nothing is owed. -/
theorem Promises.run {drafts : Array (Draft Slot)}
    (h : Promises filling.drafts data (owedBy filling.waiting)) (hrun : filling.run = .ok drafts) :
    ∃ data', Keeps filling.drafts data drafts data' ∧ Promises drafts data' fun _ => [] := by
  fun_induction Filling.run filling generalizing data with
  | case1 filling hwaiting =>
    cases hrun
    have howed : owedBy filling.waiting = fun _ => [] := by
      funext n
      rw [hwaiting, owedBy, List.flatMap_nil]
    exact ⟨data, ⟨Nat.le_refl _, fun n hn => rfl⟩, howed ▸ h⟩
  | case2 => cases hrun
  | case3 filling source target waiting hwaiting next hadd ih =>
    have howed : owedBy filling.waiting = owedBefore target source.keyedParts waiting := by
      funext n
      rw [hwaiting, owedBy_cons, owedBefore]
    rw [howed] at h
    obtain ⟨data', hkeeps, hnext⟩ := Promises.foldlM h hadd
    obtain ⟨data'', hkeeps', hdone⟩ := ih hnext hrun
    exact ⟨data'', hkeeps.trans hkeeps', hdone⟩

/-! ### The data read off -/

/-- **Where nothing is owed**, the data that are read off are those that the drafts come to. -/
theorem readAll_eq {drafts : List (Draft Slot)} {first : Nat}
    (hcomes : ∀ n draft, drafts[n]? = some draft →
      (draft.map (Slot.read data)).toDatum = data (first + n))
    (hlater : ∀ n draft, drafts[n]? = some draft → ∀ m, Slot.draft m ∈ draft.parts →
      first + n < m ∧ m < first + drafts.length) :
    Draft.readAll first drafts = (List.range' first drafts.length).map data := by
  induction drafts generalizing first with
  | nil => rfl
  | cons draft drafts ih =>
    have hrest : Draft.readAll (first + 1) drafts
        = (List.range' (first + 1) drafts.length).map data := by
      refine ih (fun n draft' hn => ?_) (fun n draft' hn m hm => ?_)
      · rw [hcomes (n + 1) draft' hn]
        congr 1
        omega
      · have := hlater (n + 1) draft' hn m hm
        rw [List.length_cons] at this
        omega
    have hread : draft.map (Slot.read fun m =>
        (Draft.readAll (first + 1) drafts).getD (m - (first + 1)) .nothing)
          = draft.map (Slot.read data) := by
      refine Draft.map_congr fun slot hslot => ?_
      cases slot with
      | data d => rfl
      | draft m =>
        obtain ⟨hm, hlast⟩ := hlater 0 draft rfl m hslot
        rw [List.length_cons] at hlast
        have hlt : m - (first + 1) < drafts.length := by omega
        have hsum : first + 1 + (m - (first + 1)) = m := by omega
        simp [Slot.read, hrest, hlt, hsum]
    rw [Draft.readAll, hread, hcomes 0 draft rfl, hrest, List.length_cons, List.range'_succ,
      List.map_cons]
    rfl

/-- **A run that ends** gives the plain data of the container that it began with. -/
theorem readAll_of_run {c : Datum} (hc : c.isContainer = true) {drafts : Array (Draft Slot)}
    (hrun : Filling.run ⟨#[.opening c], [(c, 0)]⟩ = .ok drafts) :
    (Draft.readAll 0 drafts.toList).headD .nothing = c.plain := by
  have hempty : Promises #[] (fun _ => .nothing) fun _ => [] :=
    ⟨fun n draft hn => by simp at hn, fun n draft hn => by simp at hn, fun n hn => rfl⟩
  have howed : owedBy [(c, 0)] = Function.update (fun _ => []) 0 c.keyedParts := by
    funext n
    by_cases hn : n = 0
    · simp [owedBy, hn]
    · simp [owedBy, hn, Ne.symm hn]
  have hstart := hempty.push hc
  rw [Array.size_empty, ← howed] at hstart
  obtain ⟨data, hkeeps, hdone⟩ := Promises.run hstart hrun
  have hread : Draft.readAll 0 drafts.toList = (List.range' 0 drafts.toList.length).map data := by
    refine readAll_eq (fun n draft hn => ?_) (fun n draft hn m hm => ?_)
    · rw [Array.getElem?_toList] at hn
      rw [Nat.zero_add]
      exact hdone.comes n draft hn
    · rw [Array.getElem?_toList] at hn
      rw [Nat.zero_add, Nat.zero_add, Array.length_toList]
      exact hdone.later n draft hn m hm
  obtain ⟨n, hsize⟩ := Nat.exists_eq_add_one.mpr (Nat.lt_of_lt_of_le Nat.zero_lt_one hkeeps.size_le)
  rw [hread, Array.length_toList, hsize, List.range'_succ, List.map_cons, List.headD_cons,
    hkeeps.data_eq 0 Nat.zero_lt_one]
  rfl

end Datum

end JsonLayout
