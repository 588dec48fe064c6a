import ApiLoom.Template.Body

/-!
# Scripts

A template is a script: actions, choices and loops.  Its text has a line for each
action and directive, two blanks deeper inside a choice or loop.
-/

namespace ApiLoom.Template

inductive Action where
  | comment (text : String)
  | set (name : String) (value : Term)
  /-- Calls a method for its effect. -/
  | run (call : Term)
  /-- Hands out a value. -/
  | emit (value : Term)
  | emitNull
  /-- Hands the request to the store. -/
  | send (body : Body)
  /-- Tells the caller under which identifier the request is queued. -/
  | acknowledge (stashKey : String)
  /-- Narrows a subscription to the records of the caller. -/
  | deliverOwn (ownerField : String)
  /-- Aborts: the caller is not authorized. -/
  | refuse
  | fail (message kind : Term)
  | leaveLoop
  /-- Ends the template without a request. -/
  | stop
deriving Inhabited

def Action.lines : Action → List String
  | comment text => ["## " ++ text]
  | set name value => ["#set($" ++ name ++ " = " ++ value.text ++ ")"]
  | run call => ["$util.qr(" ++ call.text ++ ")"]
  | emit value => [value.asJson.text]
  | emitNull => ["null"]
  | send body => body.lines
  | acknowledge key =>
    ["$util.toJson(\x7b\"requestId\": " ++ (Term.stash key).text ++
      ", \"status\": \"PENDING\", \"message\": \"Request queued for processing\"\x7d)"]
  | deliverOwn ownerField =>
    ["$extensions.setSubscriptionFilter($util.transform.toSubscriptionFilter(" ++
      "\x7b\"" ++ ownerField ++ "\": \x7b\"eq\": $ctx.identity.sub\x7d\x7d))"]
  | refuse => ["$util.unauthorized()"]
  | fail message kind => ["$util.error(" ++ message.text ++ ", " ++ kind.text ++ ")"]
  | leaveLoop => ["#break"]
  | stop => ["#return"]

/-- What a template does, each step with the steps that follow it. -/
inductive Script where
  | done
  | act (action : Action) (next : Script)
  | choose (condition : Cond) (yes no next : Script)
  /-- A second condition decides where the first fails. -/
  | chooseOr (first : Cond) (yes : Script) (second : Cond) (no next : Script)
  | each (name : String) (items : Term) (body next : Script)
deriving Inhabited

namespace Script

def append : Script → Script → Script
  | done, after => after
  | act a next, after => act a (next.append after)
  | choose c yes no next, after => choose c yes no (next.append after)
  | chooseOr c yes d no next, after => chooseOr c yes d no (next.append after)
  | each name items body next, after => each name items body (next.append after)

instance : Append Script := ⟨append⟩

def acts : List Action → Script
  | [] => done
  | a :: rest => act a (acts rest)

def concat : List Script → Script
  | [] => done
  | s :: rest => s ++ concat rest

/-- Does something only where a condition holds. -/
def when (condition : Cond) (body : Script) : Script := choose condition body done done

def whenNot (term : Term) (body : Script) : Script := when (.fails term) body

def either (condition : Cond) (yes no : Script) : Script := choose condition yes no done

def forEach (name : String) (items : Term) (body : Script) : Script := each name items body done

def isDone : Script → Bool
  | done => true
  | _ => false

def shift (lines : List String) : List String := lines.map fun line => "  " ++ line

def lines : Script → List String
  | done => []
  | act a next => a.lines ++ next.lines
  | choose c yes no next =>
    ("#if(" ++ c.text ++ ")") :: shift yes.lines ++
      (if no.isDone then [] else "#else" :: shift no.lines) ++ "#end" :: next.lines
  | chooseOr c yes d no next =>
    ("#if(" ++ c.text ++ ")") :: shift yes.lines ++
      ("#elseif(" ++ d.text ++ ")") :: shift no.lines ++ "#end" :: next.lines
  | each name items body next =>
    ("#foreach($" ++ name ++ " in " ++ items.text ++ ")") :: shift body.lines ++
      "#end" :: next.lines

def text (s : Script) : String :=
  String.intercalate "\n" s.lines ++ "\n"

/-! ### Lines of appended scripts -/

@[simp] theorem done_append (s : Script) : done ++ s = s := rfl

@[simp] theorem act_append (a : Action) (s t : Script) : act a s ++ t = act a (s ++ t) := rfl

@[simp] theorem choose_append (c : Cond) (yes no s t : Script) :
    choose c yes no s ++ t = choose c yes no (s ++ t) := rfl

@[simp] theorem chooseOr_append (c d : Cond) (yes no s t : Script) :
    chooseOr c yes d no s ++ t = chooseOr c yes d no (s ++ t) := rfl

@[simp] theorem each_append (name : String) (items : Term) (body s t : Script) :
    each name items body s ++ t = each name items body (s ++ t) := rfl

theorem append_assoc (s t u : Script) : s ++ t ++ u = s ++ (t ++ u) := by
  induction s <;> simp_all

theorem lines_append (s t : Script) : (s ++ t).lines = s.lines ++ t.lines := by
  induction s <;> simp_all [lines]

end Script

end ApiLoom.Template
