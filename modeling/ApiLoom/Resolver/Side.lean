import ApiLoom.Resolver.Engine

/-!
# Subscriptions and job results

Subscriptions follow the writes of a model and deliver by its read rules.  A
queued request is answered at once; its result comes later, from a table and by a
notification that all models of a set share.
-/

namespace ApiLoom

namespace Model

def subscription (m : Model) (field : RootField) : SideResolver :=
  let name := Naming.subscriptionField m.name field
  { typeName := "Subscription"
    fieldName := name
    binding := .noStore
    mutations := [Naming.rootField m.name field]
    exchange := {
      request := {
        description := s!"{name}: subscribe"
        operation := .noOp none
        auth := some (m.authCheck .read .collection)
        gate := none }
      response := {
        description := s!"{name}: subscription filter"
        shape := .subscriptionAck (m.collectionFilter.bind (·.ownerField)) filterByOwner } } }

def subscriptions (m : Model) : List SideResolver :=
  if m.enableSubscriptions then RootField.writes.map m.subscription else []

def jobResultLookup (m : Model) (config : Config) : Option SideResolver :=
  if m.isRateLimited then
    let name := Naming.jobResultField m.name
    some {
      typeName := "Query"
      fieldName := name
      binding := .forJobResults config
      mutations := []
      exchange := {
        request := {
          description := s!"{name}: result record for a queued {m.name} request"
          operation := .getItem "requestId" (argument "requestId")
          auth := some (m.authCheck .read .item)
          gate := none }
        response := {
          description := s!"{name}: job result"
          shape := .single (.plain .result) } } }
  else none

end Model

def jobPublication : SideResolver :=
  let name := Naming.publishJobResultField
  { typeName := "Mutation"
    fieldName := name
    binding := .noStore
    mutations := []
    exchange := {
      request := ⟨s!"{name}: relay a finished job", .noOp (some "$ctx.args"), none, none⟩
      response := ⟨s!"{name}: job result", .passThrough⟩ } }

def jobNotification : SideResolver :=
  let name := Naming.jobCompletedField
  { typeName := "Subscription"
    fieldName := name
    binding := .noStore
    mutations := [Naming.publishJobResultField]
    exchange := {
      request := ⟨s!"{name}: subscribe", .noOp none, none, none⟩
      response := ⟨s!"{name}: job result notification", .subscriptionAck none filterByOwner⟩ } }

def sharedResolvers (models : List Model) : List SideResolver :=
  if models.any Model.isRateLimited then [jobPublication, jobNotification] else []

end ApiLoom
