import SqlComposer.Dialect.Json
import SqlComposer.Json.Slot

/-! Revisions: changes of one JSON column, made one after the other. Each change wraps the
expression of the changes before it, from the bare column on. Where a change binds values on both
sides of that expression, the placeholders before the slot tell how its values lie around the
earlier ones. -/

namespace SqlComposer.Json

inductive Change where
  /-- Replaces the document, whatever was done to it before. -/
  | set (value : Value)
  | merge (value : Value)
  | setPath (path : PathSource) (value : Value) (createMissing : Bool)
  | removeKey (key : Value)
  | removeKeys (keys : List Value)
  | removePath (path : PathSource)
  | appendArray (value : Value)
  | prependArray (value : Value)
  | setElement (index value : Value)
  | removeElement (index : Value)
  | stripNulls

/-- What a change does to the expression so far, its arguments having been checked. -/
inductive Action where
  | replace (value : Value)
  | wrap (op : Operation) (values : List Value)
  deriving Repr

namespace Action

def expression (f : Family) (t : Storage) (inner : String) : Action → Except Fault String
  | replace _ => .ok (f.documentCast t)
  | wrap op _ => f.jsonExpression t inner op

def isWritable : Action → Bool
  | replace _ => true
  | wrap op _ => op.isWritable

def values : Action → List Value
  | replace v => [v]
  | wrap _ vs => vs

end Action

def Change.action : Change → Except Fault Action
  | set v => .ok (.replace v)
  | merge v => .ok (.wrap .merge [v])
  | setPath path v create => do
    let p ← path.resolve
    return .wrap (.setPath p create) [v]
  | removeKey key => do
    let k ← requireText "key" key
    return .wrap (.removeKey k) []
  | removeKeys [] => .error .noKeys
  | removeKeys keys => do
    let ks ← keys.mapM (requireText "key")
    return .wrap (.removeKeys ks) []
  | removePath path => do
    let p ← path.resolve
    return .wrap (.removePath p) []
  | appendArray v => .ok (.wrap .arrayAppend [v])
  | prependArray v => .ok (.wrap .arrayPrepend [v])
  | setElement i v => do
    let p ← Path.ofParts [i]
    return .wrap (.setPath p true) [v]
  | removeElement i => do
    let p ← Path.ofParts [i]
    return .wrap (.removePath p) []
  | stripNulls => .ok (.wrap .stripNulls [])

/-- The text of an action with a slot for the expression so far, and the values it binds. -/
structure Template where
  text : String
  values : List Value
  deriving Repr

structure Revision where
  family : Family
  storage : Storage
  column : String
  templates : List Template
  deriving Repr

namespace Revision

def start (f : Family) (t : Storage) (column : String) : Revision := ⟨f, t, column, []⟩

def isEmpty (r : Revision) : Bool := r.templates.isEmpty

def template (r : Revision) (c : Change) : Except Fault Template := do
  let a ← c.action
  let text ← a.expression r.family r.storage slot
  return ⟨text, a.values⟩

def apply (r : Revision) (c : Change) : Except Fault Revision := do
  let t ← r.template c
  return { r with templates := r.templates ++ [t] }

/-- The first change that is refused ends the sequence. -/
def applyAll (r : Revision) (cs : List Change) : Except Fault Revision :=
  cs.foldlM apply r

/-- Wraps an expression and its values in one more template; a template without a slot takes their
place. -/
def nest (inner : List Char × List Value) (t : Template) : List Char × List Value :=
  match cut t.text with
  | before :: after :: pieces =>
    let n := before.count '?'
    (fill inner.1 (before :: after :: pieces), t.values.take n ++ inner.2 ++ t.values.drop n)
  | _ => (t.text.toList, t.values)

def render (r : Revision) : String × List Value :=
  let (cs, values) := r.templates.foldl nest (r.column.toList, [])
  (String.ofList cs, values)

end Revision
end SqlComposer.Json
