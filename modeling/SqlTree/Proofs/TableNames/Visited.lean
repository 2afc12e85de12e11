import Mathlib
import SqlTree.TableNames.Finder
import SqlTree.Proofs.TableNames.Mention

/-! # What going through a statement takes in

Going through a tree is taking in the mentions in it, one after another.

* `TableFinder.note`: one more mention is taken in.
* `TableFinder.visitExpr_eq`, `TableFinder.visitQuery_eq`, …: one equation for each kind of part, by
  the cases in which the parts are built.
* `TableFinder.visit_eq`: the same for statements.
-/

namespace SqlTree
set_option autoImplicit false

namespace TableFinder

/-- Takes in one more mention. -/
def note (f : TableFinder) : Mention → TableFinder
  | .table name => f.add name
  | .cte name => f.addCte name

/-! ## Expressions and queries -/

mutual

theorem visitExpr_eq (f : TableFinder) : ∀ e : Expr, f.visitExpr e = e.mentions.foldl note f
  | .literal _ | .column _ | .placeholder _ => rfl
  | .binary left _ right => by
    rw [visitExpr, Expr.mentions, List.foldl_append, visitExpr_eq f left, visitExpr_eq _ right]
  | .unary _ operand => visitExpr_eq f operand
  | .call call => visitCall_eq f call
  | .array _ elements => visitExprs_eq f elements
  | .struct value => visitStruct_eq f value
  | .subquery query => visitQuery_eq f query
  | .existsQuery query => visitQuery_eq f query
  | .inList tested _ items => by
    rw [visitExpr, Expr.mentions, List.foldl_append, visitExpr_eq f tested, visitExprs_eq _ items]
  | .inQuery tested _ query => by
    rw [visitExpr, Expr.mentions, List.foldl_append, visitExpr_eq f tested, visitQuery_eq _ query]
  | .between tested _ low high => by
    rw [visitExpr, Expr.mentions, List.foldl_append, List.foldl_append, visitExpr_eq f tested,
      visitExpr_eq _ low, visitExpr_eq _ high]
  | .isNull tested _ => visitExpr_eq f tested
  | .like tested _ _ pattern => by
    rw [visitExpr, Expr.mentions, List.foldl_append, visitExpr_eq f tested, visitExpr_eq _ pattern]
  | .caseWhen operand arms otherwise => by
    rw [visitExpr, Expr.mentions, List.foldl_append, List.foldl_append, visitOptional_eq f operand,
      visitArms_eq _ arms, visitOptional_eq _ otherwise]
  | .cast _ operand _ => visitExpr_eq f operand
  | .nested inner => visitExpr_eq f inner
  | .tuple items => visitExprs_eq f items
  | .wildcard _ _ none => rfl
  | .wildcard _ _ (some items) => visitItems_eq f items

theorem visitExprs_eq (f : TableFinder) :
    ∀ es : List Expr, f.visitExprs es = (Expr.listMentions es).foldl note f
  | [] => rfl
  | e :: es => by
    rw [visitExprs, Expr.listMentions, List.foldl_append, visitExpr_eq f e, visitExprs_eq _ es]

theorem visitOptional_eq (f : TableFinder) :
    ∀ e? : Option Expr, f.visitOptional e? = (Expr.optionMentions e?).foldl note f
  | none => rfl
  | some e => visitExpr_eq f e

theorem visitRows_eq (f : TableFinder) :
    ∀ rows : List (List Expr), f.visitRows rows = (Expr.rowMentions rows).foldl note f
  | [] => rfl
  | row :: rows => by
    rw [visitRows, Expr.rowMentions, List.foldl_append, visitExprs_eq f row, visitRows_eq _ rows]

theorem visitItem_eq (f : TableFinder) : ∀ i : SelectItem, f.visitItem i = i.mentions.foldl note f
  | ⟨expr, _⟩ => visitExpr_eq f expr

theorem visitItems_eq (f : TableFinder) :
    ∀ items : List SelectItem, f.visitItems items = (SelectItem.listMentions items).foldl note f
  | [] => rfl
  | i :: items => by
    rw [visitItems, SelectItem.listMentions, List.foldl_append, visitItem_eq f i,
      visitItems_eq _ items]

theorem visitCall_eq (f : TableFinder) : ∀ c : FunctionCall, f.visitCall c = c.mentions.foldl note f
  | ⟨_, _, arguments⟩ => visitExprs_eq f arguments

theorem visitStruct_eq (f : TableFinder) :
    ∀ v : StructValue, f.visitStruct v = v.mentions.foldl note f
  | ⟨_, _, _, none⟩ => rfl
  | ⟨_, _, _, some items⟩ => visitItems_eq f items

theorem visitArm_eq (f : TableFinder) : ∀ a : WhenArm, f.visitArm a = a.mentions.foldl note f
  | ⟨condition, result⟩ => by
    rw [visitArm, WhenArm.mentions, List.foldl_append, visitExpr_eq f condition,
      visitExpr_eq _ result]

theorem visitArms_eq (f : TableFinder) :
    ∀ arms : List WhenArm, f.visitArms arms = (WhenArm.listMentions arms).foldl note f
  | [] => rfl
  | a :: arms => by
    rw [visitArms, WhenArm.listMentions, List.foldl_append, visitArm_eq f a, visitArms_eq _ arms]

theorem visitQuery_eq (f : TableFinder) : ∀ q : Query, f.visitQuery q = q.mentions.foldl note f
  | ⟨ctes, body, orderBy, _, _, _⟩ => by
    rw [visitQuery, visitWith_eq f ctes, visitBody_eq _ body, visitOrder_eq _ orderBy]
    cases ctes <;> simp only [Query.mentions, List.foldl_append, Option.elim_none, Option.elim_some]

theorem visitWith_eq (f : TableFinder) : ∀ w? : Option With,
    f.visitWith w? = (w?.elim [] With.mentions).foldl note f
  | none => rfl
  | some ⟨_, ctes⟩ => visitCtes_eq f ctes

theorem visitCte_eq (f : TableFinder) : ∀ c : Cte, f.visitCte c = c.mentions.foldl note f
  | ⟨name, _, query⟩ => visitQuery_eq (f.addCte name) query

theorem visitCtes_eq (f : TableFinder) :
    ∀ ctes : List Cte, f.visitCtes ctes = (Cte.listMentions ctes).foldl note f
  | [] => rfl
  | c :: ctes => by
    rw [visitCtes, Cte.listMentions, List.foldl_append, visitCte_eq f c, visitCtes_eq _ ctes]

theorem visitBody_eq (f : TableFinder) : ∀ b : SetExpr, f.visitBody b = b.mentions.foldl note f
  | .select block => visitBlock_eq f block
  | .parens query => visitQuery_eq f query
  | .combine _ _ left right => by
    rw [visitBody, SetExpr.mentions, List.foldl_append, visitBody_eq f left, visitBody_eq _ right]
  | .values rows => visitRows_eq f rows

theorem visitBlock_eq (f : TableFinder) : ∀ s : Select, f.visitBlock s = s.mentions.foldl note f
  | ⟨_, items, source, joins, condition, groupBy, having, qualify⟩ => by
    rw [visitBlock, visitItems_eq f items, visitSource_eq _ source, visitJoins_eq _ joins,
      visitOptional_eq _ condition, visitExprs_eq _ groupBy, visitOptional_eq _ having,
      visitOptional_eq _ qualify]
    cases source <;>
      simp only [Select.mentions, List.foldl_append, Option.elim_none, Option.elim_some]

theorem visitOrderItem_eq (f : TableFinder) :
    ∀ o : OrderItem, f.visitOrderItem o = o.mentions.foldl note f
  | ⟨expr, _, _⟩ => visitExpr_eq f expr

theorem visitOrder_eq (f : TableFinder) :
    ∀ items : List OrderItem, f.visitOrder items = (OrderItem.listMentions items).foldl note f
  | [] => rfl
  | o :: items => by
    rw [visitOrder, OrderItem.listMentions, List.foldl_append, visitOrderItem_eq f o,
      visitOrder_eq _ items]

theorem visitFromItem_eq (f : TableFinder) :
    ∀ i : FromItem, f.visitFromItem i = i.mentions.foldl note f
  | ⟨relation, _, _, _⟩ => visitRelation_eq f relation

theorem visitSource_eq (f : TableFinder) : ∀ i? : Option FromItem,
    f.visitSource i? = (i?.elim [] FromItem.mentions).foldl note f
  | none => rfl
  | some item => visitFromItem_eq f item

theorem visitRelation_eq (f : TableFinder) :
    ∀ r : Relation, f.visitRelation r = r.mentions.foldl note f
  | .table _ => rfl
  | .query query => visitQuery_eq f query
  | .lateral query => visitQuery_eq f query
  | .function _ call => visitCall_eq f call
  | .joined item joins => by
    rw [visitRelation, Relation.mentions, List.foldl_append, visitFromItem_eq f item,
      visitJoins_eq _ joins]
  | .values rows => visitRows_eq f rows

theorem visitJoin_eq (f : TableFinder) : ∀ j : Join, f.visitJoin j = j.mentions.foldl note f
  | ⟨_, item, constraint⟩ => by
    rw [visitJoin, Join.mentions, List.foldl_append, visitFromItem_eq f item,
      visitConstraint_eq _ constraint]

theorem visitJoins_eq (f : TableFinder) :
    ∀ joins : List Join, f.visitJoins joins = (Join.listMentions joins).foldl note f
  | [] => rfl
  | j :: joins => by
    rw [visitJoins, Join.listMentions, List.foldl_append, visitJoin_eq f j, visitJoins_eq _ joins]

theorem visitConstraint_eq (f : TableFinder) :
    ∀ c : JoinConstraint, f.visitConstraint c = c.mentions.foldl note f
  | .on condition => visitExpr_eq f condition
  | .using _ | .none => rfl

end

/-! ## Statements -/

/-- Going through the members of a list takes in the mentions in them, if going through one does. -/
theorem foldl_visit_eq {α : Type} {visit : TableFinder → α → TableFinder}
    {mentions : α → List Mention} (h : ∀ f a, visit f a = (mentions a).foldl note f)
    (as : List α) (f : TableFinder) :
    as.foldl visit f = (as.flatMap mentions).foldl note f := by
  rw [List.foldl_flatMap]
  exact congrArg (fun step => as.foldl step f) (funext fun f => funext fun a => h f a)

theorem visitAssignments_eq (f : TableFinder) (as : List Assignment) :
    f.visitAssignments as = (Assignment.listMentions as).foldl note f := by
  rw [visitAssignments, visitExprs_eq]
  induction as generalizing f with
  | nil => rfl
  | cons a as ih =>
    rw [List.map_cons, Expr.listMentions, List.foldl_append, ih, Assignment.listMentions,
      Assignment.listMentions, List.flatMap_cons, List.foldl_append]

theorem visitInserted_eq (f : TableFinder) (s : InsertSource) :
    f.visitInserted s = s.mentions.foldl note f := by
  cases s with
  | values rows => exact visitRows_eq f rows
  | query q => exact visitQuery_eq f q
  | defaultValues => rfl

theorem visitConflict_eq (f : TableFinder) (c? : Option OnConflict) :
    f.visitConflict c? = (c?.elim [] OnConflict.mentions).foldl note f := by
  rcases c? with _ | ⟨columns, _ | assignments⟩
  · rfl
  · rfl
  · exact visitAssignments_eq f assignments

theorem visitInsert_eq (f : TableFinder) (i : Insert) :
    f.visitInsert i = i.mentions.foldl note f := by
  simp only [visitInsert, visitInserted_eq, visitConflict_eq, Insert.mentions, List.foldl_append]
  rfl

theorem visitUpdate_eq (f : TableFinder) (u : Update) :
    f.visitUpdate u = u.mentions.foldl note f := by
  simp only [visitUpdate, visitAssignments_eq, visitSource_eq, visitJoins_eq, visitOptional_eq,
    Update.mentions, List.foldl_append]
  rfl

theorem visitColumn_eq (f : TableFinder) (c : ColumnDef) :
    f.visitColumn c = c.mentions.foldl note f := by
  unfold visitColumn ColumnDef.mentions
  cases c.references <;> rfl

theorem visitRule_eq (f : TableFinder) (c : TableConstraint) :
    f.visitRule c = c.mentions.foldl note f := by
  unfold visitRule TableConstraint.mentions
  cases c.rule <;> rfl

theorem visitCreate_eq (f : TableFinder) (c : CreateTable) :
    f.visitCreate c = c.mentions.foldl note f := by
  simp only [visitCreate, CreateTable.mentions, List.foldl_append, foldl_visit_eq visitColumn_eq,
    foldl_visit_eq visitRule_eq]
  cases c.query with
  | none => rfl
  | some q => exact visitQuery_eq _ q

theorem visitChange_eq (f : TableFinder) (c : TableChange) :
    f.visitChange c = c.mentions.foldl note f := by
  cases c with
  | addColumn _ _ column => exact visitColumn_eq f column
  | addConstraint constraint => exact visitRule_eq f constraint
  | _ => rfl

/-- Going through a statement takes in the mentions in it, one after another. -/
theorem visit_eq (f : TableFinder) (s : Statement) : f.visit s = s.mentions.foldl note f := by
  cases s with
  | query q => exact visitQuery_eq f q
  | insert i => exact visitInsert_eq f i
  | update u => exact visitUpdate_eq f u
  | delete d => exact visitOptional_eq (f.add d.table) d.condition
  | createTable c => exact visitCreate_eq f c
  | alterTable a => exact foldl_visit_eq visitChange_eq a.changes (f.add a.name)
  | «show» r => cases r <;> rfl
  | unsupported text => rfl

end TableFinder
end SqlTree
