import SmartLogistics.Platform.Errors

/-!
# Roles and principals

The caller of an operation as its access token describes it, with the role gate of an endpoint
(`Principal.require`) and the row scoping every service applies (`Principal.mayTouchWarehouse`).
-/

set_option autoImplicit false

namespace SmartLogistics.Platform

/-- The roles. -/
inductive UserRole
  | admin
  | customerSupport
  | warehouseOperator
  | courier
  deriving DecidableEq, Repr

/-- The text of a role. -/
def UserRole.value : UserRole → String
  | .admin => "admin"
  | .customerSupport => "customer_support"
  | .warehouseOperator => "warehouse_operator"
  | .courier => "courier"

/-- The authenticated caller. -/
structure Principal where
  userId : Nat
  role : UserRole
  warehouseIds : List Nat
  courierId : Option Nat := none
  deriving DecidableEq, Repr

namespace Principal

/-- The caller is an admin. -/
def isAdmin (principal : Principal) : Bool := principal.role == .admin

/-- Admins and support see every warehouse's rows. -/
def seesAllWarehouses (principal : Principal) : Bool :=
  principal.role == .admin || principal.role == .customerSupport

/-- `may_touch_warehouse`: the warehouse is in the caller's scope. -/
def mayTouchWarehouse (principal : Principal) (warehouseId : Nat) : Bool :=
  principal.seesAllWarehouses || principal.warehouseIds.contains warehouseId

/-- The warehouses a caller may see rows of; `none` is no restriction. -/
def scopedWarehouseIds (principal : Principal) : Option (List Nat) :=
  if principal.seesAllWarehouses then none
  else if principal.role == .warehouseOperator then some principal.warehouseIds
  else some []

/-- `Depends(auth.require(...))`: the role gate of an endpoint. -/
def require (principal : Principal) (roles : List UserRole) : Except DomainError Unit :=
  if roles.contains principal.role then .ok ()
  else
    .error (permissionDeniedError
      ("This action requires one of: " ++ ", ".intercalate (roles.map UserRole.value)))

end Principal

end SmartLogistics.Platform
