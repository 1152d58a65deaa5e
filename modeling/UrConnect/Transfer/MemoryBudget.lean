import UrConnect.Base
import UrConnect.Lib.Forest

/-! Byte budgets shared by transfer queues. A budget is addressed by its number in the
tree, in the order of creation, so that the immutable parent links form a forest. -/

namespace UrConnect.Transfer

open UrConnect.Lib

structure TransferMemoryBudget where
  totalByteCount : ℤ
  usedByteCount : ℤ
  floorByteCount : ℤ
  reservedByteCount : ℤ
  releasedByteCount : ℤ
deriving DecidableEq

namespace TransferMemoryBudget

def newTransferMemoryBudget (totalByteCount : ℤ) : TransferMemoryBudget where
  totalByteCount := totalByteCount
  usedByteCount := 0
  floorByteCount := 0
  reservedByteCount := 0
  releasedByteCount := 0

def reserveByteCount (budget : TransferMemoryBudget) (byteCount : ℤ) : TransferMemoryBudget :=
  { budget with
    usedByteCount := budget.usedByteCount + byteCount
    reservedByteCount := budget.reservedByteCount + byteCount }

def releaseByteCount (budget : TransferMemoryBudget) (byteCount : ℤ) : TransferMemoryBudget :=
  { budget with
    usedByteCount := budget.usedByteCount - byteCount
    releasedByteCount := budget.releasedByteCount + byteCount }

end TransferMemoryBudget

structure BudgetTree where
  size : ℕ
  links : Forest
  root : ℕ → Option ℕ
  hasChildren : ℕ → Bool
  budget : ℕ → TransferMemoryBudget

namespace BudgetTree

open TransferMemoryBudget

def empty : BudgetTree where
  size := 0
  links := ⟨fun _ => none, by simp⟩
  root _ := none
  hasChildren _ := false
  budget _ := newTransferMemoryBudget 0

variable (t : BudgetTree)

def chain (i : ℕ) : List ℕ := t.links.chain i

def admissionRoot (i : ℕ) : ℕ := (t.root i).getD i

def requiresAdmissionLock (i : ℕ) : Bool :=
  (t.links.parent i).isSome || (t.root i).isSome || t.hasChildren i

def newTransferMemoryBudgetWithParent (totalByteCount : ℤ) (parent : Option (Fin t.size)) :
    BudgetTree where
  size := t.size + 1
  links := t.links.graft t.size (parent.map Fin.val) (by
    rintro q hq
    obtain ⟨p, -, rfl⟩ := Option.map_eq_some_iff.mp hq
    exact p.isLt)
  root := Function.update t.root t.size (parent.map fun p => t.admissionRoot p)
  hasChildren := match parent with
    | none => t.hasChildren
    | some p => Function.update t.hasChildren (t.admissionRoot p) true
  budget := Function.update t.budget t.size (newTransferMemoryBudget totalByteCount)

def modify (i : ℕ) (f : TransferMemoryBudget → TransferMemoryBudget) : BudgetTree :=
  { t with budget := Function.update t.budget i (f (t.budget i)) }

def forEach (is : List ℕ) (f : TransferMemoryBudget → TransferMemoryBudget) : BudgetTree :=
  is.foldl (fun t i => t.modify i f) t

def setTotalByteCount (i : ℕ) (totalByteCount : ℤ) : BudgetTree :=
  t.modify i fun budget => { budget with totalByteCount := totalByteCount }

def addFloor (i : ℕ) (byteCount : ℤ) : BudgetTree :=
  t.modify i fun budget => { budget with floorByteCount := budget.floorByteCount + max 0 byteCount }

def removeFloor (i : ℕ) (byteCount : ℤ) : BudgetTree :=
  t.modify i fun budget => { budget with floorByteCount := budget.floorByteCount - max 0 byteCount }

def available (i : ℕ) : ℤ :=
  (t.chain i).tail.foldl
    (fun available j =>
      min available (max 0 ((t.budget j).totalByteCount - (t.budget j).usedByteCount)))
    (max 0 ((t.budget i).totalByteCount - (t.budget i).usedByteCount))

def fits (byteCount : ℤ) (i : ℕ) : Bool :=
  !decide ((t.budget i).totalByteCount < byteCount ∨
    (t.budget i).totalByteCount - byteCount < (t.budget i).usedByteCount)

def tryReserve (i : ℕ) (byteCount : ℤ) : Bool × BudgetTree :=
  if byteCount < 0 then (false, t)
  else if (t.chain i).all (t.fits byteCount) then
    (true, t.forEach (t.chain i) fun budget => budget.reserveByteCount byteCount)
  else (false, t)

def reserve (i : ℕ) (byteCount : ℤ) : BudgetTree :=
  if t.requiresAdmissionLock i = false then t.modify i fun budget => budget.reserveByteCount byteCount
  else
    let admitted := t.tryReserve i byteCount
    if admitted.1 then admitted.2
    else t.forEach (t.chain i) fun budget => budget.reserveByteCount byteCount

def release (i : ℕ) (byteCount : ℤ) : BudgetTree :=
  if t.requiresAdmissionLock i = false then t.modify i fun budget => budget.releaseByteCount byteCount
  else t.forEach (t.chain i) fun budget => budget.releaseByteCount byteCount

def hasMoveSource (byteCount : ℤ) (i : ℕ) : Bool :=
  !decide ((t.budget i).usedByteCount < byteCount)

def hasMoveRoom (byteCount : ℤ) (i : ℕ) : Bool :=
  !decide ((t.budget i).totalByteCount - (t.budget i).usedByteCount < byteCount)

/-- Ancestors shared by the two budgets keep their charge throughout the move. -/
def tryMoveReservation (self target : Option ℕ) (byteCount : ℤ) : Bool × BudgetTree :=
  match self, target with
  | some i, some k =>
    if byteCount < 0 ∨ t.admissionRoot i ≠ t.admissionRoot k then (false, t)
    else if (t.chain i).all (t.hasMoveSource byteCount) = false then (false, t)
    else if (t.chain k).all (fun j => (t.chain i).contains j || t.hasMoveRoom byteCount j) = false then
      (false, t)
    else
      let released := t.forEach ((t.chain i).filter fun j => !(t.chain k).contains j)
        fun budget => budget.releaseByteCount byteCount
      (true, released.forEach ((t.chain k).filter fun j => !(t.chain i).contains j)
        fun budget => budget.reserveByteCount byteCount)
  | _, _ => (false, t)

section Fields

variable {t} {i j : ℕ} {is : List ℕ} {f : TransferMemoryBudget → TransferMemoryBudget}

@[simp] lemma modify_size : (t.modify i f).size = t.size := rfl

@[simp] lemma modify_links : (t.modify i f).links = t.links := rfl

lemma modify_budget : (t.modify i f).budget j = if j = i then f (t.budget j) else t.budget j := by
  by_cases h : j = i
  · subst h
    simp [modify]
  · simp [modify, h]

@[simp] lemma forEach_size : (t.forEach is f).size = t.size := by
  induction is generalizing t with
  | nil => rfl
  | cons i is ih => exact ih

@[simp] lemma forEach_links : (t.forEach is f).links = t.links := by
  induction is generalizing t with
  | nil => rfl
  | cons i is ih => exact ih

lemma forEach_budget (h : is.Nodup) :
    (t.forEach is f).budget j = if j ∈ is then f (t.budget j) else t.budget j := by
  induction is generalizing t with
  | nil => simp [forEach]
  | cons i is ih =>
    obtain ⟨hi, his⟩ := List.nodup_cons.mp h
    change ((t.modify i f).forEach is f).budget j = _
    rw [ih his, modify_budget]
    by_cases hj : j = i
    · subst hj
      simp [hi]
    · simp [hj]

end Fields

end BudgetTree

end UrConnect.Transfer
