import ProxySession.Session.Evaluation.Primitive
import ProxySession.Text.Quoted

/-!
# Text of thrown values

The host tells of a value that foreign code has thrown by a text.
-/

namespace ProxySession

namespace Eval

open Effect

/-- The text property of an error object, if it has one that turns into a text. -/
def errorText {ε : Type} (r : ObjectRef) (name : String) : Effect ε (Option String) := do
  let read : Eval (Option Units) := do
    match ← getProperty r (.ofString name) with
    | .undefined | .null => pure none
    | v => some <$> textOf v
  match ← read.attempt with
  | .ok (some t) => pure t.decode.toOption
  | _ => pure none

/-- The text that describes a thrown value: the message and the stack of an error object, or the
written form of any other value. -/
def thrownText {ε : Type} (v : Value) : Effect ε String := do
  let described (text : String) : String := "Exception generated by quickjs: " ++ text ++ "\n"
  match v with
  | .object r =>
    if (← world).heap.isError v then
      let message ← errorText r "message"
      let stack ← errorText r "stack"
      let text := match message with
        | some m => "Error: " ++ m
        | none => "Error:"
      pure (text ++ (match stack with
        | some s => "\n" ++ s
        | none => ""))
    else
      let kind := match (← world).heap.typeName v with
        | "array" => "Array"
        | "function" => "Function"
        | "constructor" => "Constructor"
        | "promise" => "Promise"
        | _ => "Object"
      pure (described (kind ++ "(PTR)"))
  | .undefined => pure (described "Undefined\"undefined\"")
  | .null => pure (described "Null\"null\"")
  | .bool b => pure (described ("Bool(" ++ toString b ++ ")"))
  | .int n => pure (described ("Int(" ++ toString n.toInt ++ ")"))
  | .float x => pure (described ("Float(" ++ NumberStyle.exact.write x ++ ")"))
  | .bigint _ => pure (described "BigInt\"BigInt\"")
  | .text t =>
    match t.decode with
    | .ok s => pure (described ("String(Ok(" ++ Text.quote s ++ "))"))
    | .error offset =>
      pure (described ("String(Err(Utf8(Utf8Error \x7b valid_up_to: " ++ toString offset
        ++ ", error_len: Some(1) \x7d)))"))
  | .symbol _ => pure (described "Symbol(PTR)")

end Eval

end ProxySession
