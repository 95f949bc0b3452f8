/-
# What tables of constants tell

Waiting constants are written by type, and threads with their groups.  Neither loses nor repeats
anything on the way:

* `TypeSet.filter_constants`, `TypeSet.perm_constants`: of each type the constants that wait, in the
  order of registration;
* `ThreadInfo.find?_groups`: each group that occurs, under the name that comes first.
-/
import TraceRecorder.Proofs.Chunk.Constants
import TraceRecorder.Proofs.OrderedDict
import TraceRecorder.TypeSet

namespace TraceRecorder

/-! ## 1. Keys -/

namespace Dict

variable {κ ν : Type} [KeyOrder κ] [LawfulKeyOrder κ] {d : Dict κ ν}

theorem Ordered.nodup_keys (h : Ordered d) : d.keys.Nodup := by
  refine List.pairwise_map.2 (h.imp fun {a b} hab heq => ?_)
  rw [heq, LawfulKeyOrder.irrefl] at hab
  cases hab

/-- **A key is one that is found.** -/
theorem Ordered.mem_keys_iff [DecidableEq κ] (h : Ordered d) (k : κ) :
    k ∈ d.keys ↔ (find? d k).isSome := by
  constructor
  · intro hk
    obtain ⟨pair, hp, rfl⟩ := List.mem_map.1 hk
    rw [h.find?_of_mem hp, Option.isSome_some]
  · intro hk
    obtain ⟨v, hv⟩ := Option.isSome_iff_exists.1 hk
    exact List.mem_map.2 ⟨_, mem_of_find? hv, rfl⟩

end Dict

section Ascending

variable {κ : Type} [DecidableEq κ] [KeyOrder κ] [LawfulKeyOrder κ]

theorem ordered_ascending (members : List κ) (d : Dict κ Unit) (h : Dict.Ordered d) :
    Dict.Ordered (members.foldl (fun d k => Dict.insert d k ()) d) ∧
      ∀ k, (Dict.find? (members.foldl (fun d k => Dict.insert d k ()) d) k).isSome ↔
        (Dict.find? d k).isSome ∨ k ∈ members := by
  induction members generalizing d with
  | nil => exact ⟨h, fun k => by simp⟩
  | cons m rest ih =>
    obtain ⟨hordered, hmem⟩ := ih (Dict.insert d m ()) (h.insert m ())
    refine ⟨hordered, fun k => ?_⟩
    rw [List.foldl_cons, hmem]
    by_cases hk : k = m
    · simp [hk]
    · simp [Dict.find?_insert_of_ne d () hk, hk]

theorem nodup_ascending (members : List κ) : (ascending members).Nodup :=
  (ordered_ascending members [] .nil).1.nodup_keys

theorem mem_ascending {members : List κ} {k : κ} : k ∈ ascending members ↔ k ∈ members := by
  obtain ⟨hordered, hmem⟩ := ordered_ascending members [] .nil
  rw [ascending, hordered.mem_keys_iff, hmem]
  simp [Dict.find?]

end Ascending

theorem pairwise_ascending (members : List UInt64) : (ascending members).Pairwise (· < ·) :=
  List.pairwise_map.2 ((ordered_ascending members [] .nil).1.imp fun {_ _} h => of_decide_eq_true h)

/-! ## 2. Relations without pairs -/

theorem Relation.flatMap_constants_filter (relations : List Relation) :
    (relations.filter fun relation => !relation.isEmpty).flatMap Relation.constants =
      relations.flatMap Relation.constants := by
  induction relations with
  | nil => rfl
  | cons relation rest ih =>
    by_cases hr : relation.isEmpty = true
    · have hnone : relation.constants = [] := by
        rw [constants, List.isEmpty_iff.1 hr, List.map_nil]
      rw [List.filter_cons_of_neg (by simp [hr]), ih, List.flatMap_cons, hnone, List.nil_append]
    · rw [List.filter_cons_of_pos (by simp [hr]), List.flatMap_cons, List.flatMap_cons, ih]

/-! ## 3. Waiting constants -/

/-- The constant that is written in the end. -/
def PendingConstant.constant (c : PendingConstant) : Constant := (c.typeId, c.key, c.value)

namespace TypeSet

variable (s : TypeSet)

theorem flatMap_of_nodup {α β : Type} [DecidableEq α] {xs : List α} (hn : xs.Nodup) {x : α}
    {ys : List β} (hx : x ∉ xs → ys = []) :
    xs.flatMap (fun y => if y = x then ys else []) = ys := by
  induction xs with
  | nil => exact (hx List.not_mem_nil).symm
  | cons y xs ih =>
    obtain ⟨hy, hn⟩ := List.nodup_cons.1 hn
    by_cases hyx : y = x
    · subst hyx
      have hrest : xs.flatMap (fun z => if z = y then ys else []) = [] :=
        List.flatMap_eq_nil_iff.2 fun z hz => if_neg fun heq : z = y => hy (heq ▸ hz)
      rw [List.flatMap_cons, if_pos rfl, hrest, List.append_nil]
    · rw [List.flatMap_cons, if_neg hyx, List.nil_append]
      exact ih hn fun hxs => hx (by simp [hxs, Ne.symm hyx])

theorem filter_relations :
    (s.relations.filter fun relation => !relation.isEmpty) = s.relations := by
  refine List.filter_eq_self.2 fun relation hr => ?_
  obtain ⟨typeId, htype, rfl⟩ := List.mem_map.1 hr
  obtain ⟨c, hc, rfl⟩ := List.mem_map.1 (mem_ascending.1 htype)
  have hmem : (c.key, c.value) ∈ s.pairsOf c.typeId :=
    List.mem_map.2 ⟨c, List.mem_filter.2 ⟨hc, beq_self_eq_true _⟩, rfl⟩
  simpa [Relation.isEmpty] using List.ne_nil_of_mem hmem

theorem relations_eq_nil_iff : s.relations = [] ↔ s = [] := by
  refine ⟨fun h => ?_, fun h => by rw [h]; rfl⟩
  rcases s with - | ⟨c, s⟩
  · rfl
  · have hmem : c.typeId ∈ ascending ((c :: s).map PendingConstant.typeId) :=
      mem_ascending.2 List.mem_cons_self
    rw [List.map_eq_nil_iff.1 h] at hmem
    cases hmem

theorem exists_nonempty_relation (hs : s ≠ []) :
    ∃ relation ∈ s.relations, relation.isEmpty = false := by
  obtain ⟨relation, hr⟩ := List.exists_mem_of_ne_nil _ (mt s.relations_eq_nil_iff.1 hs)
  refine ⟨relation, hr, ?_⟩
  rw [← s.filter_relations] at hr
  simpa using (List.mem_filter.1 hr).2

/-- **The constants of a type are written in the order of registration.** -/
theorem filter_constants (typeId : UInt64) :
    (s.relations.flatMap Relation.constants).filter (fun c => c.1 == typeId) =
      (s.filter fun c => c.typeId == typeId).map PendingConstant.constant := by
  have heach : ∀ t, ((⟨t, s.pairsOf t⟩ : Relation).constants).filter (fun c => c.1 == typeId) =
      if t = typeId then (s.filter fun c => c.typeId == typeId).map PendingConstant.constant
      else [] := by
    intro t
    by_cases ht : t = typeId
    · subst ht
      rw [if_pos rfl, List.filter_eq_self.2]
      · rw [Relation.constants, pairsOf, List.map_map]
        refine List.map_congr_left fun c hc => ?_
        have hct : c.typeId = t := by simpa using (List.mem_filter.1 hc).2
        rw [PendingConstant.constant, hct]
        rfl
      · intro c hc
        obtain ⟨pair, -, rfl⟩ := List.mem_map.1 hc
        exact beq_self_eq_true t
    · rw [if_neg ht, List.filter_eq_nil_iff]
      intro c hc
      obtain ⟨pair, -, rfl⟩ := List.mem_map.1 hc
      simpa using ht
  rw [relations, List.flatMap_map, List.filter_flatMap]
  simp only [heach]
  refine flatMap_of_nodup (nodup_ascending _) fun hnone => ?_
  rw [mem_ascending] at hnone
  rw [List.map_eq_nil_iff, List.filter_eq_nil_iff]
  intro c hc heq
  exact hnone (List.mem_map.2 ⟨c, hc, by simpa using heq⟩)

/-- **What is written is what waits.** -/
theorem perm_constants :
    (s.relations.flatMap Relation.constants).Perm (s.map PendingConstant.constant) := by
  rw [List.perm_iff_count]
  intro c
  have hwritten := List.count_filter (l := s.relations.flatMap Relation.constants)
    (p := fun x => x.1 == c.1) (beq_self_eq_true c.1)
  have hwaits := List.count_filter (l := s.map PendingConstant.constant)
    (p := fun x => x.1 == c.1) (beq_self_eq_true c.1)
  rw [filter_constants] at hwritten
  rw [List.filter_map] at hwaits
  exact hwritten.symm.trans hwaits

theorem refersTo_eq (classes : List ClassId) (c : PendingConstant) :
    refersTo classes c = c.referent.any fun id => decide (id ∈ classes) := by
  cases hc : c.referent <;> simp [refersTo, hc]

end TypeSet

/-! ## 4. Threads and groups -/

namespace ThreadInfo

/-- The constant of a thread in a table. -/
def constant (info : ThreadInfo) : Constant := (ConstantType.thread, info.id, info.value none)

def groupConstant (group : UInt64 × String) : Constant :=
  (ConstantType.threadGroup, group.1, groupValue group.2)

theorem find?_foldl_groups (threads : List ThreadInfo) (d : Dict UInt64 String) (id : UInt64) :
    Dict.find? (threads.foldl
        (fun d info => Dict.update d info.groupId (·.getD info.groupName)) d) id =
      (Dict.find? d id).or
        ((threads.find? fun info => info.groupId == id).map ThreadInfo.groupName) := by
  induction threads generalizing d with
  | nil => simp
  | cons info rest ih =>
    rw [List.foldl_cons, ih, List.find?_cons]
    by_cases hid : id = info.groupId
    · subst hid
      rw [Dict.update, Dict.find?_insert_self, beq_self_eq_true]
      cases Dict.find? d info.groupId <;> rfl
    · rw [Dict.update, Dict.find?_insert_of_ne _ _ hid, beq_false_of_ne (Ne.symm hid)]

/-- **A group has the name that comes first among the threads.** -/
theorem find?_groups (threads : List ThreadInfo) (id : UInt64) :
    Dict.find? (groups threads) id =
      (threads.find? fun info => info.groupId == id).map ThreadInfo.groupName :=
  find?_foldl_groups threads [] id

theorem ordered_groups (threads : List ThreadInfo) : Dict.Ordered (groups threads) := by
  have hall : ∀ d : Dict UInt64 String, Dict.Ordered d → Dict.Ordered (threads.foldl
      (fun d info => Dict.update d info.groupId (·.getD info.groupName)) d) := by
    induction threads with
    | nil => exact fun d hd => hd
    | cons info rest ih => exact fun d hd => ih _ (hd.insert _ _)
  exact hall [] .nil

/-- **Each group that occurs is entered once.** -/
theorem mem_keys_groups {threads : List ThreadInfo} {id : UInt64} :
    id ∈ Dict.keys (groups threads) ↔ ∃ info ∈ threads, info.groupId = id := by
  rw [(ordered_groups threads).mem_keys_iff, find?_groups, Option.isSome_map,
    List.find?_isSome]
  simp

theorem constants_table (threads : List ThreadInfo) :
    (table threads).flatMap Relation.constants =
      threads.map constant ++ (groups threads).map groupConstant := by
  rw [table, List.flatMap_cons, List.flatMap_singleton, Relation.constants, Relation.constants,
    List.map_map, List.map_map]
  rfl

end ThreadInfo

end TraceRecorder
