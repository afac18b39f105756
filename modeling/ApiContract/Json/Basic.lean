import ApiContract.Decimal.Double
import ApiContract.Members

namespace ApiContract

/-- An integer of at most 64 bits, signed or unsigned, stays one; any other number is a double. -/
inductive Number where
  | integer (n : Int)
  | double (x : Double)
deriving Repr, DecidableEq, Inhabited

inductive Json where
  | null
  | bool (b : Bool)
  | number (n : Number)
  | string (s : String)
  | array (items : List Json)
  | object (members : List (String × Json))
deriving Repr, Inhabited

namespace Json

mutual

/-- The value with the members of every object by name. -/
def canonical : Json → Json
  | array items => array (canonicalList items)
  | object members => object (Members.sorted (canonicalMembers members))
  | other => other

def canonicalList : List Json → List Json
  | [] => []
  | v :: rest => canonical v :: canonicalList rest

def canonicalMembers : List (String × Json) → List (String × Json)
  | [] => []
  | (k, v) :: rest => (k, canonical v) :: canonicalMembers rest

end

mutual

def beq : Json → Json → Bool
  | null, null => true
  | bool a, bool b => a == b
  | number a, number b => a == b
  | string a, string b => a == b
  | array a, array b => beqList a b
  | object a, object b => beqMembers a b
  | _, _ => false

def beqList : List Json → List Json → Bool
  | [], [] => true
  | a :: as, b :: bs => beq a b && beqList as bs
  | _, _ => false

def beqMembers : List (String × Json) → List (String × Json) → Bool
  | [], [] => true
  | (k, a) :: as, (l, b) :: bs => k == l && beq a b && beqMembers as bs
  | _, _ => false

end

mutual

theorem eq_of_beq {a b : Json} (h : beq a b = true) : a = b := by
  match a, b with
  | null, null => rfl
  | bool _, bool _ => simp_all [beq]
  | number _, number _ => simp_all [beq]
  | string _, string _ => simp_all [beq]
  | array as, array bs => exact congrArg array (eq_of_beqList (by simpa [beq] using h))
  | object as, object bs => exact congrArg object (eq_of_beqMembers (by simpa [beq] using h))
  | null, bool _ | null, number _ | null, string _ | null, array _ | null, object _
  | bool _, null | bool _, number _ | bool _, string _ | bool _, array _ | bool _, object _
  | number _, null | number _, bool _ | number _, string _ | number _, array _
  | number _, object _ | string _, null | string _, bool _ | string _, number _
  | string _, array _ | string _, object _ | array _, null | array _, bool _
  | array _, number _ | array _, string _ | array _, object _ | object _, null
  | object _, bool _ | object _, number _ | object _, string _ | object _, array _ =>
    simp [beq] at h

theorem eq_of_beqList {as bs : List Json} (h : beqList as bs = true) : as = bs := by
  match as, bs with
  | [], [] => rfl
  | a :: as, b :: bs =>
    simp only [beqList, Bool.and_eq_true] at h
    rw [eq_of_beq h.1, eq_of_beqList h.2]
  | [], _ :: _ | _ :: _, [] => simp [beqList] at h

theorem eq_of_beqMembers {as bs : List (String × Json)} (h : beqMembers as bs = true) :
    as = bs := by
  match as, bs with
  | [], [] => rfl
  | (k, a) :: as, (l, b) :: bs =>
    simp only [beqMembers, Bool.and_eq_true, beq_iff_eq] at h
    rw [h.1.1, eq_of_beq h.1.2, eq_of_beqMembers h.2]
  | [], _ :: _ | _ :: _, [] => simp [beqMembers] at h

end

mutual

theorem beq_self (a : Json) : beq a a = true := by
  match a with
  | null => rfl
  | bool _ | number _ | string _ => simp [beq]
  | array as => simpa [beq] using beqList_self as
  | object as => simpa [beq] using beqMembers_self as

theorem beqList_self (as : List Json) : beqList as as = true := by
  match as with
  | [] => rfl
  | a :: as => simp [beqList, beq_self a, beqList_self as]

theorem beqMembers_self (as : List (String × Json)) : beqMembers as as = true := by
  match as with
  | [] => rfl
  | (k, a) :: as => simp [beqMembers, beq_self a, beqMembers_self as]

end

instance : DecidableEq Json := fun a b =>
  if h : beq a b = true then isTrue (eq_of_beq h)
  else isFalse fun he => h (he ▸ beq_self a)

end Json

end ApiContract
