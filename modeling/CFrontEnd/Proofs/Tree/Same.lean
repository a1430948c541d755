import CFrontEnd.Proofs.Tree.Leaves

/-!
# Equality as Values

Trees are compared as values. On trees over printable leaves this is equality: what makes the two
differ are values that are not numbers, which differ from themselves, and the negative zero, which
is the same as zero.

## Main results

* `Program.same_iff`: programs over printable leaves are the same if they are equal.
-/

namespace CFrontEnd

/-- Printable literals have no value that is not a number and no negative zero. -/
theorem Literal.same_iff {first second : Literal} (hfirst : Leaves.printable.literal first)
    (hsecond : Leaves.printable.literal second) : first.same second = true ↔ first = second := by
  match first, second, hfirst, hsecond with
  | .float _, .float _, ⟨rank, _, hx⟩, ⟨rank', _, hy⟩ =>
    subst hx hy
    simp [same, Binary64.same]
  | .int _, .int _, _, _ | .string _, .string _, _, _ => simp [same]
  | .int _, .float _, _, _ | .int _, .string _, _, _ | .float _, .int _, _, _
  | .float _, .string _, _, _ | .string _, .int _, _, _ | .string _, .float _, _, _ => simp [same]

theorem Expr.same_iff : (x : Expr) → x.Over .printable → ∀ y : Expr, y.Over .printable →
    (x.same y = true ↔ x = y)
  | .constant literal, hx, y, hy => by
    cases y with
    | constant literal' => simp [same, Literal.same_iff hx hy]
    | _ => simp [same]
  | .variable name, _, y, _ => by
    cases y <;> simp [same]
  | .unary operator operand, hx, y, hy => by
    cases y with
    | unary operator' operand' => simp [same, operand.same_iff hx operand' hy]
    | _ => simp [same]
  | .binary operator left right, hx, y, hy => by
    cases y with
    | binary operator' left' right' =>
      simp [same, left.same_iff hx.1 left' hy.1, right.same_iff hx.2 right' hy.2, and_assoc]
    | _ => simp [same]

mutual

theorem Stmt.same_iff : (x : Stmt) → x.Over .printable → ∀ y : Stmt, y.Over .printable →
    (x.same y = true ↔ x = y)
  | .assignment operator target value, hx, y, hy => by
    cases y with
    | assignment operator' target' value' =>
      simp [Stmt.same, value.same_iff hx.2 value' hy.2, and_assoc]
    | _ => simp [Stmt.same]
  | .declaration typeName name none, _, y, _ => by
    cases y with
    | declaration typeName' name' initializer' => cases initializer' <;> simp [Stmt.same]
    | _ => simp [Stmt.same]
  | .declaration typeName name (some value), hx, y, hy => by
    cases y with
    | declaration typeName' name' initializer' =>
      cases initializer' with
      | none => simp [Stmt.same]
      | some value' => simp [Stmt.same, value.same_iff hx.2.2 value' hy.2.2, and_assoc]
    | _ => simp [Stmt.same]
  | .ret value, hx, y, hy => by
    cases y with
    | ret value' => simp [Stmt.same, value.same_iff hx value' hy]
    | _ => simp [Stmt.same]
  | .ifThen condition body, hx, y, hy => by
    cases y with
    | ifThen condition' body' =>
      simp [Stmt.same, condition.same_iff hx.1 condition' hy.1,
        Stmt.sameAll_iff body hx.2 body' hy.2]
    | _ => simp [Stmt.same]
  | .ifElse condition body elseBody, hx, y, hy => by
    cases y with
    | ifElse condition' body' elseBody' =>
      simp [Stmt.same, condition.same_iff hx.1 condition' hy.1,
        Stmt.sameAll_iff body hx.2.1 body' hy.2.1,
        Stmt.sameAll_iff elseBody hx.2.2 elseBody' hy.2.2, and_assoc]
    | _ => simp [Stmt.same]

theorem Stmt.sameAll_iff : (xs : List Stmt) → Stmt.AllOver .printable xs →
    ∀ ys : List Stmt, Stmt.AllOver .printable ys → (Stmt.sameAll xs ys = true ↔ xs = ys)
  | [], _, ys, _ => by
    cases ys <;> simp [Stmt.sameAll]
  | x :: xs, hx, ys, hy => by
    cases ys with
    | nil => simp [Stmt.sameAll]
    | cons y ys =>
      simp [Stmt.sameAll, x.same_iff hx.1 y hy.1, Stmt.sameAll_iff xs hx.2 ys hy.2]

end

theorem FunctionDef.same_iff {x y : FunctionDef} (hx : x.Over .printable)
    (hy : y.Over .printable) : x.same y = true ↔ x = y := by
  obtain ⟨returnType, name, arguments, body⟩ := x
  obtain ⟨returnType', name', arguments', body'⟩ := y
  obtain ⟨-, -, -, hbody⟩ := hx
  obtain ⟨-, -, -, hbody'⟩ := hy
  simp [same, Stmt.sameAll_iff body hbody body' hbody', and_assoc]

theorem FunctionDef.sameAll_iff {xs ys : List FunctionDef} (hxs : ∀ x ∈ xs, x.Over .printable)
    (hys : ∀ y ∈ ys, y.Over .printable) : FunctionDef.sameAll xs ys = true ↔ xs = ys := by
  induction xs generalizing ys with
  | nil => cases ys <;> simp [sameAll]
  | cons x xs ih =>
    cases ys with
    | nil => simp [sameAll]
    | cons y ys =>
      obtain ⟨hx, hxs⟩ := List.forall_mem_cons.mp hxs
      obtain ⟨hy, hys⟩ := List.forall_mem_cons.mp hys
      simp [sameAll, same_iff hx hy, ih hxs hys]

/-- Programs over printable leaves are the same if they are equal. -/
theorem Program.same_iff {p q : Program} (hp : p.Over .printable) (hq : q.Over .printable) :
    p.same q = true ↔ p = q := by
  obtain ⟨functions⟩ := p
  obtain ⟨functions'⟩ := q
  simp [same, FunctionDef.sameAll_iff hp hq]

end CFrontEnd
