import GoFire.Foundations.DoubleNumbers
import GoFire.Store.Records
import Mathlib.Data.List.Sort
import Mathlib.Data.String.Basic

/-! Job arguments as Go values, and what encoding/json makes of them. Decoded into an interface
value a number becomes a double, so that a second encoding can differ from the first.
-/

namespace GoFire.Store

open DoubleNumbers

/-- A Go value with numbers of type `ν`. A map lists its entries in some order. -/
inductive Value (ν : Type) where
  | null
  | bool (value : Bool)
  | num (value : ν)
  | str (value : String)
  | nilSlice
  | slice (items : List (Value ν))
  | nilMap
  | map (entries : List (String × Value ν))

-----------------------------------------------------------------------------------------
-- Induction over values and documents
-----------------------------------------------------------------------------------------

@[induction_eliminator]
theorem Value.induct {ν : Type} {motive : Value ν → Prop} (null : motive .null)
    (bool : ∀ value, motive (.bool value)) (num : ∀ value, motive (.num value))
    (str : ∀ value, motive (.str value)) (nilSlice : motive .nilSlice)
    (slice : ∀ items, (∀ item ∈ items, motive item) → motive (.slice items))
    (nilMap : motive .nilMap)
    (map : ∀ entries, (∀ entry ∈ entries, motive entry.2) → motive (.map entries))
    (v : Value ν)
    : motive v :=
  @Value.rec ν motive (fun items => ∀ item ∈ items, motive item)
    (fun entries => ∀ entry ∈ entries, motive entry.2) (fun entry => motive entry.2) null bool
    num str nilSlice slice nilMap map nofun
    (fun _ _ head tail => List.forall_mem_cons.mpr ⟨head, tail⟩) nofun
    (fun _ _ head tail => List.forall_mem_cons.mpr ⟨head, tail⟩) (fun _ _ value => value) v

@[induction_eliminator]
theorem Json.induct {motive : Json → Prop} (null : motive .null)
    (bool : ∀ value, motive (.bool value)) (num : ∀ value, motive (.num value))
    (str : ∀ value, motive (.str value))
    (arr : ∀ items, (∀ item ∈ items, motive item) → motive (.arr items))
    (obj : ∀ members, (∀ member ∈ members, motive member.2) → motive (.obj members))
    (doc : Json)
    : motive doc :=
  @Json.rec motive (fun items => ∀ item ∈ items, motive item)
    (fun members => ∀ member ∈ members, motive member.2) (fun member => motive member.2) null
    bool num str arr obj nofun (fun _ _ head tail => List.forall_mem_cons.mpr ⟨head, tail⟩) nofun
    (fun _ _ head tail => List.forall_mem_cons.mpr ⟨head, tail⟩) (fun _ _ value => value) doc

-----------------------------------------------------------------------------------------
-- Marshal and Unmarshal
-----------------------------------------------------------------------------------------

/-- The members of an object are written in the order of their keys. -/
def sortMembers (members : List (String × Json)) : List (String × Json) :=
  members.insertionSort (fun a b => a.1 ≤ b.1)

theorem mem_sortMembers {members : List (String × Json)} {member : String × Json}
    : member ∈ sortMembers members ↔ member ∈ members :=
  (List.perm_insertionSort _ _).mem_iff

theorem sortMembers_keys_perm (members : List (String × Json))
    : ((sortMembers members).map Prod.fst).Perm (members.map Prod.fst) :=
  (List.perm_insertionSort _ _).map Prod.fst

/-- Sorted keys are in strict order exactly when there is one member for each key. -/
theorem sortMembers_sorted_iff (members : List (String × Json))
    : ((sortMembers members).map Prod.fst).Pairwise (· < ·) ↔ (members.map Prod.fst).Nodup := by
  have sorted : ((sortMembers members).map Prod.fst).Pairwise (· ≤ ·) :=
    List.pairwise_map.mpr (List.pairwise_insertionSort _ _)
  rw [← (sortMembers_keys_perm members).nodup_iff]
  constructor
  · exact fun strict => strict.imp ne_of_lt
  · intro distinct
    exact (sorted.and distinct).imp fun both => lt_of_le_of_ne both.1 both.2

/-- Members in the order of their keys are written as they are. -/
theorem sortMembers_eq {members : List (String × Json)}
    (sorted : (members.map Prod.fst).Pairwise (· < ·))
    : sortMembers members = members :=
  ((List.pairwise_map.mp sorted).imp le_of_lt).insertionSort_eq

mutual

/-- json.Marshal, when numbers are printed in this way. -/
def Value.marshal {ν : Type} (print : ν → Int) : Value ν → Json
  | .null => .null
  | .bool value => .bool value
  | .num value => .num (print value)
  | .str value => .str value
  | .nilSlice => .null
  | .slice items => .arr (marshalItems print items)
  | .nilMap => .null
  | .map entries => .obj (sortMembers (marshalEntries print entries))

def marshalItems {ν : Type} (print : ν → Int) : List (Value ν) → List Json
  | [] => []
  | item :: rest => item.marshal print :: marshalItems print rest

def marshalEntries {ν : Type} (print : ν → Int)
    : List (String × Value ν) → List (String × Json)
  | [] => []
  | (key, value) :: rest => (key, value.marshal print) :: marshalEntries print rest

end

/-- A later member takes the place of an earlier one with its key. -/
def setEntry {α : Type} (entries : List (String × α)) (entry : String × α)
    : List (String × α) :=
  entries.filter (fun old => old.1 ≠ entry.1) ++ [entry]

mutual

/-- json.Unmarshal into an interface value. -/
def Json.unmarshal : Json → Value WholeDouble
  | .null => .null
  | .bool value => .bool value
  | .num value => .num (.ofInt value)
  | .str value => .str value
  | .arr items => .slice (unmarshalItems items)
  | .obj members => .map ((unmarshalMembers members).foldl setEntry [])

def unmarshalItems : List Json → List (Value WholeDouble)
  | [] => []
  | item :: rest => item.unmarshal :: unmarshalItems rest

def unmarshalMembers : List (String × Json) → List (String × Value WholeDouble)
  | [] => []
  | (key, value) :: rest => (key, value.unmarshal) :: unmarshalMembers rest

end

/-- A document that is decoded into an interface value and encoded again. -/
def Json.reread (doc : Json) : Json := doc.unmarshal.marshal WholeDouble.toDecimal

section

variable {ν : Type} (print : ν → Int)

theorem marshalItems_eq (items : List (Value ν))
    : marshalItems print items = items.map (Value.marshal print) := by
  induction items with
  | nil => rfl
  | cons item rest ih => rw [marshalItems, ih, List.map_cons]

theorem marshalEntries_eq (entries : List (String × Value ν))
    : marshalEntries print entries = entries.map (fun entry => (entry.1, entry.2.marshal print)) := by
  induction entries with
  | nil => rfl
  | cons entry rest ih => rw [marshalEntries, ih, List.map_cons]

theorem unmarshalItems_eq (items : List Json)
    : unmarshalItems items = items.map Json.unmarshal := by
  induction items with
  | nil => rfl
  | cons item rest ih => rw [unmarshalItems, ih, List.map_cons]

theorem unmarshalMembers_eq (members : List (String × Json))
    : unmarshalMembers members = members.map (fun member => (member.1, member.2.unmarshal)) := by
  induction members with
  | nil => rfl
  | cons member rest ih => rw [unmarshalMembers, ih, List.map_cons]

end

-----------------------------------------------------------------------------------------
-- Numbers and keys in values and documents
-----------------------------------------------------------------------------------------

mutual

/-- All numbers meet a condition, and so do the keys of all maps. -/
def Value.All {ν : Type} (num : ν → Prop) (keys : List String → Prop) : Value ν → Prop
  | .num value => num value
  | .slice items => allItems num keys items
  | .map entries => keys (entries.map Prod.fst) ∧ allEntries num keys entries
  | _ => True

def allItems {ν : Type} (num : ν → Prop) (keys : List String → Prop) : List (Value ν) → Prop
  | [] => True
  | item :: rest => item.All num keys ∧ allItems num keys rest

def allEntries {ν : Type} (num : ν → Prop) (keys : List String → Prop)
    : List (String × Value ν) → Prop
  | [] => True
  | (_, value) :: rest => value.All num keys ∧ allEntries num keys rest

end

mutual

/-- All numbers of a document meet a condition, and so do the keys of all objects. -/
def Json.All (num : Int → Prop) (keys : List String → Prop) : Json → Prop
  | .num value => num value
  | .arr items => allElements num keys items
  | .obj members => keys (members.map Prod.fst) ∧ allMembers num keys members
  | _ => True

def allElements (num : Int → Prop) (keys : List String → Prop) : List Json → Prop
  | [] => True
  | item :: rest => item.All num keys ∧ allElements num keys rest

def allMembers (num : Int → Prop) (keys : List String → Prop) : List (String × Json) → Prop
  | [] => True
  | (_, value) :: rest => value.All num keys ∧ allMembers num keys rest

end

section

variable {ν : Type} {num : ν → Prop} {docNum : Int → Prop} {keys : List String → Prop}

theorem allItems_iff {items : List (Value ν)}
    : allItems num keys items ↔ ∀ item ∈ items, item.All num keys := by
  induction items with
  | nil => exact iff_of_true trivial nofun
  | cons item rest ih => rw [allItems, ih, List.forall_mem_cons]

theorem allEntries_iff {entries : List (String × Value ν)}
    : allEntries num keys entries ↔ ∀ entry ∈ entries, entry.2.All num keys := by
  induction entries with
  | nil => exact iff_of_true trivial nofun
  | cons entry rest ih => rw [allEntries, ih, List.forall_mem_cons]

theorem allElements_iff {items : List Json}
    : allElements docNum keys items ↔ ∀ item ∈ items, item.All docNum keys := by
  induction items with
  | nil => exact iff_of_true trivial nofun
  | cons item rest ih => rw [allElements, ih, List.forall_mem_cons]

theorem allMembers_iff {members : List (String × Json)}
    : allMembers docNum keys members ↔ ∀ member ∈ members, member.2.All docNum keys := by
  induction members with
  | nil => exact iff_of_true trivial nofun
  | cons member rest ih => rw [allMembers, ih, List.forall_mem_cons]

end

/-- Maps have one entry for each of their keys. -/
def Value.KeysDistinct {ν : Type} (v : Value ν) : Prop := v.All (fun _ => True) List.Nodup

def Value.AllNums {ν : Type} (num : ν → Prop) (v : Value ν) : Prop := v.All num (fun _ => True)

theorem Value.AllNums.mono {ν : Type} {num num' : ν → Prop} {v : Value ν} (all : v.AllNums num)
    (weaker : ∀ n, num n → num' n)
    : v.AllNums num' := by
  induction v with
  | num value => exact weaker value all
  | slice items ih =>
      rw [Value.AllNums, Value.All, allItems_iff] at all ⊢
      exact fun item mem => ih item mem (all item mem)
  | map entries ih =>
      rw [Value.AllNums, Value.All, allEntries_iff] at all ⊢
      exact ⟨trivial, fun entry mem => ih entry mem (all.2 entry mem)⟩
  | null | bool | str | nilSlice | nilMap => exact all

/-- The members of all objects are in the order of their keys, one for each key. -/
def Json.KeysSorted (doc : Json) : Prop := doc.All (fun _ => True) (List.Pairwise (· < ·))

/-- Marshal keeps the numbers, and a condition on keys that sorting turns into another. -/
theorem marshal_all_iff {ν : Type} {print : ν → Int} {num : Int → Prop}
    {keys sortedKeys : List String → Prop}
    (sorts : ∀ members, sortedKeys ((sortMembers members).map Prod.fst)
      ↔ keys (members.map Prod.fst))
    (v : Value ν)
    : (v.marshal print).All num sortedKeys ↔ v.All (fun value => num (print value)) keys := by
  induction v with
  | slice items ih =>
      rw [Value.marshal, Json.All, Value.All, marshalItems_eq, allElements_iff, allItems_iff,
        List.forall_mem_map]
      exact forall₂_congr ih
  | map entries ih =>
      have sameKeys : (marshalEntries print entries).map Prod.fst = entries.map Prod.fst := by
        rw [marshalEntries_eq, List.map_map]
        rfl
      rw [Value.marshal, Json.All, Value.All, sorts, sameKeys, allMembers_iff, allEntries_iff]
      simp only [mem_sortMembers, marshalEntries_eq, List.forall_mem_map]
      exact and_congr_right fun _ => forall₂_congr ih
  | null | bool | num | str | nilSlice | nilMap => exact Iff.rfl

/-- What Marshal writes for a value with distinct keys has sorted keys. -/
theorem marshal_keysSorted {ν : Type} {print : ν → Int} {v : Value ν} (distinct : v.KeysDistinct)
    : (v.marshal print).KeysSorted :=
  (marshal_all_iff sortMembers_sorted_iff v).mpr distinct

theorem marshal_allNums_iff {ν : Type} {print : ν → Int} {num : Int → Prop} (v : Value ν)
    : (v.marshal print).All num (fun _ => True) ↔ v.AllNums (fun value => num (print value)) :=
  marshal_all_iff (fun _ => Iff.rfl) v

-----------------------------------------------------------------------------------------
-- A document that is read and written again
-----------------------------------------------------------------------------------------

/-- Entries with new keys are added one after the other, by induction on them. -/
theorem foldl_setEntry {α : Type} (entries new : List (String × α))
    (distinct : ((entries ++ new).map Prod.fst).Nodup)
    : new.foldl setEntry entries = entries ++ new := by
  induction new generalizing entries with
  | nil => rw [List.foldl_nil, List.append_nil]
  | cons entry rest ih =>
      have regrouped : entries ++ entry :: rest = entries ++ [entry] ++ rest := by simp
      have absent : ∀ old ∈ entries, old.1 ≠ entry.1 := by
        intro old mem same
        rw [List.map_append, List.nodup_append] at distinct
        exact distinct.2.2 old.1 (List.mem_map_of_mem mem) entry.1 (by simp) same
      have added : setEntry entries entry = entries ++ [entry] := by
        rw [setEntry, List.filter_eq_self.mpr (by simpa using absent)]
      rw [List.foldl_cons, added, regrouped]
      exact ih _ (regrouped ▸ distinct)

theorem map_eq_self_iff {α : Type} {f : α → α} {l : List α}
    : l.map f = l ↔ ∀ a ∈ l, f a = a := by
  have same := List.map_inj_left (l := l) (f := f) (g := id)
  rwa [List.map_id] at same

/-- A document with sorted keys stays the same exactly when each of its numbers is printed again
as it was.
-/
theorem reread_eq_iff {doc : Json} (sorted : doc.KeysSorted)
    : doc.reread = doc
      ↔ doc.All (fun n => (WholeDouble.ofInt n).toDecimal = n) (fun _ => True) := by
  induction doc with
  | null | bool | str => exact iff_of_true rfl trivial
  | num value => rw [Json.reread, Json.unmarshal, Value.marshal, Json.num.injEq, Json.All]
  | arr items ih =>
      rw [Json.KeysSorted, Json.All, allElements_iff] at sorted
      rw [Json.reread, Json.unmarshal, Value.marshal, unmarshalItems_eq, marshalItems_eq,
        List.map_map, Json.arr.injEq, Json.All, allElements_iff, map_eq_self_iff]
      exact forall₂_congr fun item mem => ih item mem (sorted item mem)
  | obj members ih =>
      rw [Json.KeysSorted, Json.All, allMembers_iff] at sorted
      have sameKeys : (unmarshalMembers members).map Prod.fst = members.map Prod.fst := by
        rw [unmarshalMembers_eq, List.map_map]
        rfl
      have distinct : ((unmarshalMembers members).map Prod.fst).Nodup :=
        sameKeys ▸ sorted.1.imp ne_of_lt
      have read := foldl_setEntry [] (unmarshalMembers members) distinct
      let again := members.map (fun member => (member.1, member.2.reread))
      have written : marshalEntries WholeDouble.toDecimal (unmarshalMembers members) = again := by
        rw [marshalEntries_eq, unmarshalMembers_eq, List.map_map]
        rfl
      have sortedAgain : (again.map Prod.fst).Pairwise (· < ·) := by
        rw [List.map_map]
        exact sorted.1
      rw [Json.reread, Json.unmarshal, Value.marshal, read, List.nil_append, written,
        sortMembers_eq sortedAgain, Json.obj.injEq, Json.All, allMembers_iff, map_eq_self_iff,
        true_and]
      apply forall₂_congr
      intro member mem
      rw [← ih member mem (sorted.2 member mem), Prod.ext_iff]
      exact and_iff_right rfl

-----------------------------------------------------------------------------------------
-- How deep values and documents are nested
-----------------------------------------------------------------------------------------

mutual

def Value.depth {ν : Type} : Value ν → Nat
  | .slice items => itemsDepth items + 1
  | .map entries => entriesDepth entries + 1
  | _ => 0

def itemsDepth {ν : Type} : List (Value ν) → Nat
  | [] => 0
  | item :: rest => max item.depth (itemsDepth rest)

def entriesDepth {ν : Type} : List (String × Value ν) → Nat
  | [] => 0
  | (_, value) :: rest => max value.depth (entriesDepth rest)

end

mutual

def Json.depth : Json → Nat
  | .arr items => elementsDepth items + 1
  | .obj members => membersDepth members + 1
  | _ => 0

def elementsDepth : List Json → Nat
  | [] => 0
  | item :: rest => max item.depth (elementsDepth rest)

def membersDepth : List (String × Json) → Nat
  | [] => 0
  | (_, value) :: rest => max value.depth (membersDepth rest)

end

section

variable {ν : Type} {d : Nat}

theorem itemsDepth_le_iff {items : List (Value ν)}
    : itemsDepth items ≤ d ↔ ∀ item ∈ items, item.depth ≤ d := by
  induction items with
  | nil => exact iff_of_true (Nat.zero_le d) nofun
  | cons item rest ih => rw [itemsDepth, max_le_iff, ih, List.forall_mem_cons]

theorem entriesDepth_le_iff {entries : List (String × Value ν)}
    : entriesDepth entries ≤ d ↔ ∀ entry ∈ entries, entry.2.depth ≤ d := by
  induction entries with
  | nil => exact iff_of_true (Nat.zero_le d) nofun
  | cons entry rest ih => rw [entriesDepth, max_le_iff, ih, List.forall_mem_cons]

theorem elementsDepth_le_iff {items : List Json}
    : elementsDepth items ≤ d ↔ ∀ item ∈ items, item.depth ≤ d := by
  induction items with
  | nil => exact iff_of_true (Nat.zero_le d) nofun
  | cons item rest ih => rw [elementsDepth, max_le_iff, ih, List.forall_mem_cons]

theorem membersDepth_le_iff {members : List (String × Json)}
    : membersDepth members ≤ d ↔ ∀ member ∈ members, member.2.depth ≤ d := by
  induction members with
  | nil => exact iff_of_true (Nat.zero_le d) nofun
  | cons member rest ih => rw [membersDepth, max_le_iff, ih, List.forall_mem_cons]

end

theorem marshal_depth_le_iff {ν : Type} {print : ν → Int} (v : Value ν) (d : Nat)
    : (v.marshal print).depth ≤ d ↔ v.depth ≤ d := by
  induction v generalizing d with
  | slice items ih =>
      rw [Value.marshal, Json.depth, Value.depth]
      cases d with
      | zero => exact iff_of_false (Nat.not_succ_le_zero _) (Nat.not_succ_le_zero _)
      | succ d =>
          rw [Nat.succ_le_succ_iff, Nat.succ_le_succ_iff, elementsDepth_le_iff, itemsDepth_le_iff,
            marshalItems_eq, List.forall_mem_map]
          exact forall₂_congr fun item mem => ih item mem d
  | map entries ih =>
      rw [Value.marshal, Json.depth, Value.depth]
      cases d with
      | zero => exact iff_of_false (Nat.not_succ_le_zero _) (Nat.not_succ_le_zero _)
      | succ d =>
          rw [Nat.succ_le_succ_iff, Nat.succ_le_succ_iff, membersDepth_le_iff, entriesDepth_le_iff]
          simp only [mem_sortMembers, marshalEntries_eq, List.forall_mem_map]
          exact forall₂_congr fun entry mem => ih entry mem d
  | null | bool | num | str | nilSlice | nilMap => exact Iff.rfl

/-- Marshal keeps the depth. -/
theorem marshal_depth {ν : Type} (print : ν → Int) (v : Value ν)
    : (v.marshal print).depth = v.depth :=
  eq_of_forall_ge_iff (marshal_depth_le_iff v)

end GoFire.Store
