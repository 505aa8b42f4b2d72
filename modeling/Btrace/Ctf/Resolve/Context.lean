import Btrace.Ctf.FieldClass

set_option autoImplicit false

/- The state of the TSDL reference resolver (`ctf-meta-resolve.cpp`): the
`resolve_context`, its descent stack, and the path-string helpers. The field
classes are reached through pointers into the trace class the resolver is
mutating, held in the context as `tc`. Logging is not modelled. -/
namespace Btrace.Ctf

/-- How a resolver function ends when it does not return 0: a `-1` return, or
a failed `BT_ASSERT` / `bt_common_abort` that stops the process. -/
inductive ResolveError where
  | failed
  | aborted
  deriving DecidableEq, Repr

/-- `struct field_class_stack_frame`: a compound class and the index of the
child being visited in it (-1 for an array or sequence). -/
structure FieldClassStackFrame where
  fc : CtfFieldClass
  index : Int
  deriving DecidableEq, Repr

/-- The six scope pointers of `resolve_context`, each null or a root class. -/
structure ResolveScopes where
  packetHeader : Option RootClassRef
  packetContext : Option RootClassRef
  eventHeader : Option RootClassRef
  eventCommonContext : Option RootClassRef
  eventSpecContext : Option RootClassRef
  eventPayload : Option RootClassRef
  deriving DecidableEq, Repr

/-- The switch of `borrow_class_from_ctx`, on pointers. -/
def ResolveScopes.get (scopes : ResolveScopes) : CtfScope → Option RootClassRef
  | .packetHeader => scopes.packetHeader
  | .packetContext => scopes.packetContext
  | .eventHeader => scopes.eventHeader
  | .eventCommonContext => scopes.eventCommonContext
  | .eventSpecificContext => scopes.eventSpecContext
  | .eventPayload => scopes.eventPayload

/-- `struct resolve_context`. `sc` and `ec` are read only for their translated
flags, so they hold the classes themselves; the stack is a `GPtrArray`, bottom
frame first. `cur_fc` is the class being resolved and is passed as an argument
instead. -/
structure ResolveContext where
  tc : CtfTraceClass
  sc : Option CtfStreamClass
  ec : Option CtfEventClass
  scopes : ResolveScopes
  rootScope : CtfScope
  fieldClassStack : List FieldClassStackFrame

/-- The resolver's functions: they mutate the context and the trace class, and
what they mutated stays mutated when they fail. -/
abbrev ResolveM := EStateM ResolveError ResolveContext

/-- `borrow_class_from_ctx`: the root class a scope pointer points to. -/
def borrowClassFromCtx (ctx : ResolveContext) (scope : CtfScope) : Option CtfFieldClass :=
  (ctx.scopes.get scope).bind ctx.tc.rootClass

/-- `field_class_stack_push`. A new frame is zeroed by `g_new0`. -/
def fieldClassStackPush (fc : CtfFieldClass) : ResolveM Unit :=
  modify fun ctx => { ctx with fieldClassStack := ctx.fieldClassStack ++ [⟨fc, 0⟩] }

/-- `field_class_stack_peek`, which asserts that the stack is not empty. -/
def fieldClassStackPeek : ResolveM FieldClassStackFrame := do
  match (← get).fieldClassStack.getLast? with
  | some frame => pure frame
  | none => throw .aborted

/-- `field_class_stack_peek(ctx->field_class_stack)->index = index`. -/
def fieldClassStackSetTopIndex (index : Int) : ResolveM Unit := do
  let frame ← fieldClassStackPeek
  modify fun ctx =>
    { ctx with fieldClassStack := ctx.fieldClassStack.dropLast ++ [{ frame with index := index }] }

/-- `field_class_stack_at`, which asserts that `index` is below the size. -/
def fieldClassStackAt (stack : List FieldClassStackFrame) (index : Nat) :
    Except ResolveError FieldClassStackFrame :=
  match stack[index]? with
  | some frame => .ok frame
  | none => .error .aborted

/-- `field_class_stack_pop`: drops the top frame of a non-empty stack. -/
def fieldClassStackPop : ResolveM Unit :=
  modify fun ctx => { ctx with fieldClassStack := ctx.fieldClassStack.dropLast }

/-- `absolute_path_prefixes`, TSDL's dynamic scope prefixes. -/
def absolutePathPrefixes : CtfScope → String
  | .packetHeader => "trace.packet.header."
  | .packetContext => "stream.packet.context."
  | .eventHeader => "stream.event.header."
  | .eventCommonContext => "stream.event.context."
  | .eventSpecificContext => "event.context."
  | .eventPayload => "event.fields."

/-- `absolute_path_prefix_ptoken_counts`. -/
def absolutePathPrefixPtokenCounts : CtfScope → Nat
  | .packetHeader => 3
  | .packetContext => 3
  | .eventHeader => 3
  | .eventCommonContext => 3
  | .eventSpecificContext => 2
  | .eventPayload => 2

/-- The scopes in the order the prefix loop tries them. -/
def ctfScopes : List CtfScope :=
  [.packetHeader, .packetContext, .eventHeader, .eventCommonContext, .eventSpecificContext,
    .eventPayload]

/-- `get_root_scope_from_absolute_pathstr`: the first scope whose prefix starts
the path string (`strncmp` over the prefix's length), `none` for a relative
path (`CTF_SCOPE_PACKET_UNKNOWN`). -/
def getRootScopeFromAbsolutePathstr (pathstr : String) : Option CtfScope :=
  ctfScopes.find? fun scope => (absolutePathPrefixes scope).toList.isPrefixOf pathstr.toList

/-- The loop of `pathstr_to_ptokens` past `last`: `token` holds the characters
between `last` and `at`, and a `.` or the terminator ends a token, which must
not be empty. -/
def pathstrToPtokensLoop : List Char → List Char → Option (List String)
  | [], token => if token.isEmpty then none else some [String.mk token]
  | c :: rest, token =>
      if c = '.' then
        if token.isEmpty then none else (String.mk token :: ·) <$> pathstrToPtokensLoop rest []
      else pathstrToPtokensLoop rest (token ++ [c])

/-- `pathstr_to_ptokens`: the `.`-separated tokens of a path string, `NULL` on
an empty token. -/
def pathstrToPtokens (pathstr : String) : Option (List String) :=
  pathstrToPtokensLoop pathstr.toList []

end Btrace.Ctf
