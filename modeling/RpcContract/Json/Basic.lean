import RpcContract.Dict

/-!
JSON values. Numbers keep integers apart from floating-point numbers, which are given by the bits
of an IEEE 754 double; the members of an object are a `Dict`. Main statement: equality of values
is decidable (`beq_iff_eq`).
-/

namespace RpcContract

inductive Number where
  | int (value : Int)
  | float (bits : UInt64)
deriving DecidableEq, Repr, Inhabited

inductive Json where
  | null
  | bool (value : Bool)
  | num (value : Number)
  | str (value : String)
  | arr (items : List Json)
  | obj (members : List (String × Json))
deriving Repr, Inhabited

namespace Json

abbrev Members := Dict Json

mutual

def beq : Json → Json → Bool
  | .null, .null => true
  | .bool a, .bool b => a == b
  | .num a, .num b => a == b
  | .str a, .str b => a == b
  | .arr a, .arr b => beqItems a b
  | .obj a, .obj b => beqMembers a b
  | _, _ => false

def beqItems : List Json → List Json → Bool
  | [], [] => true
  | a :: as, b :: bs => beq a b && beqItems as bs
  | _, _ => false

def beqMembers : List (String × Json) → List (String × Json) → Bool
  | [], [] => true
  | (k, a) :: as, (l, b) :: bs => k == l && beq a b && beqMembers as bs
  | _, _ => false

end

mutual

theorem eq_of_beq : ∀ a b : Json, beq a b = true → a = b
  | .null, b, h => by cases b <;> simp_all [beq]
  | .bool a, b, h => by cases b <;> simp_all [beq]
  | .num a, b, h => by cases b <;> simp_all [beq]
  | .str a, b, h => by cases b <;> simp_all [beq]
  | .arr a, b, h => by
    cases b <;> simp only [beq, Bool.false_eq_true] at h
    rw [eq_of_beqItems _ _ h]
  | .obj a, b, h => by
    cases b <;> simp only [beq, Bool.false_eq_true] at h
    rw [eq_of_beqMembers _ _ h]

theorem eq_of_beqItems : ∀ a b : List Json, beqItems a b = true → a = b
  | [], b, h => by cases b <;> simp_all [beqItems]
  | a :: as, [], h => by simp [beqItems] at h
  | a :: as, b :: bs, h => by
    simp only [beqItems, Bool.and_eq_true] at h
    rw [eq_of_beq _ _ h.1, eq_of_beqItems _ _ h.2]

theorem eq_of_beqMembers : ∀ a b : List (String × Json), beqMembers a b = true → a = b
  | [], b, h => by cases b <;> simp_all [beqMembers]
  | a :: as, [], h => by simp [beqMembers] at h
  | (k, a) :: as, (l, b) :: bs, h => by
    simp only [beqMembers, Bool.and_eq_true, beq_iff_eq] at h
    rw [h.1.1, eq_of_beq _ _ h.1.2, eq_of_beqMembers _ _ h.2]

end

mutual

theorem beq_self : ∀ a : Json, beq a a = true
  | .null => by simp [beq]
  | .bool _ => by simp [beq]
  | .num _ => by simp [beq]
  | .str _ => by simp [beq]
  | .arr a => by simpa only [beq] using beqItems_self a
  | .obj a => by simpa only [beq] using beqMembers_self a

theorem beqItems_self : ∀ a : List Json, beqItems a a = true
  | [] => by simp [beqItems]
  | a :: as => by simp [beqItems, beq_self a, beqItems_self as]

theorem beqMembers_self : ∀ a : List (String × Json), beqMembers a a = true
  | [] => by simp [beqMembers]
  | (_, a) :: as => by simp [beqMembers, beq_self a, beqMembers_self as]

end

theorem beq_eq_true_iff {a b : Json} : beq a b = true ↔ a = b :=
  ⟨eq_of_beq a b, fun h => h ▸ beq_self a⟩

instance : DecidableEq Json := fun _ _ => decidable_of_iff _ beq_eq_true_iff

/-- The member of an object with the given name; none for other values. -/
def get? : Json → String → Option Json
  | .obj members, key => Dict.get? members key
  | _, _ => none

def asObject? : Json → Option Members
  | .obj members => some members
  | _ => none

def asArray? : Json → Option (List Json)
  | .arr items => some items
  | _ => none

def asString? : Json → Option String
  | .str s => some s
  | _ => none

def isObject (j : Json) : Bool := j.asObject?.isSome

def ofNat (n : Nat) : Json := .num (.int n)

end Json

end RpcContract
