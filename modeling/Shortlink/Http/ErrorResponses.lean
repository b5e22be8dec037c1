import Shortlink.Auth.Service

/-!
# Error responses

`formatValidationErrors` and the exception of the validation pipe in `main.ts`, and
`api-exception.filter.ts`. The errors of the pipe form a tree; the answer lists the messages of
its nodes under their paths (`validation_answer`).
-/

namespace Shortlink

namespace Http

/-! ### The validation pipe -/

/-- `ValidationError` of the validator; no children and an empty list are the same. -/
inductive ValidationError where
  | mk (property : String) (constraints : Option (List (String × String)))
      (children : List ValidationError)

/-- `Record<string, string[]>`, by its entries. -/
abbrev FieldErrors : Type := List (String × List String)

/-- `formatted[path] = messages`. -/
def FieldErrors.assign (path : String) (messages : List String) : FieldErrors → FieldErrors
  | [] => [(path, messages)]
  | field :: formatted =>
      if field.1 = path then (path, messages) :: formatted
      else field :: assign path messages formatted

/-- `Object.assign(formatted, fields)`. -/
def FieldErrors.assignAll (formatted fields : FieldErrors) : FieldErrors :=
  fields.foldl (fun formatted field => formatted.assign field.1 field.2) formatted

/-- The messages of a node, when it has some. -/
def FieldErrors.assignConstraints (path : String) (constraints : Option (List (String × String)))
    (formatted : FieldErrors) : FieldErrors :=
  match constraints with
  | some constraints => formatted.assign path (constraints.map (·.2))
  | none => formatted

def pathOf (parentPath property : String) : String :=
  if parentPath = "" then property else parentPath ++ "." ++ property

def formatLoop : List ValidationError → String → FieldErrors → FieldErrors
  | [], _, formatted => formatted
  | .mk property constraints children :: errors, parentPath, formatted =>
      let path := pathOf parentPath property
      let formatted := formatted.assignConstraints path constraints
      let formatted := if children.isEmpty then formatted
        else formatted.assignAll (formatLoop children path [])
      formatLoop errors parentPath formatted

def formatValidationErrors (errors : List ValidationError) (parentPath : String) : FieldErrors :=
  formatLoop errors parentPath []

/-- The nodes of the tree that have messages, by their paths. -/
def reports : List ValidationError → String → FieldErrors
  | [], _ => []
  | .mk property constraints children :: errors, parentPath =>
      (constraints.map fun constraints =>
        (pathOf parentPath property, constraints.map (·.2))).toList ++
        (reports children (pathOf parentPath property) ++ reports errors parentPath)

namespace FieldErrors

variable {formatted fields : FieldErrors} {path : String}

/-- No path occurs twice. -/
def Distinct (formatted : FieldErrors) : Prop := (formatted.map (·.1)).Nodup

theorem lookup_field (field : String × List String) (formatted : FieldErrors) (path : String) :
    List.lookup path (field :: formatted) =
      if path = field.1 then some field.2 else formatted.lookup path := by
  rw [List.lookup_cons]
  by_cases h : path = field.1
  · rw [beq_iff_eq.2 h, if_pos h]
  · rw [beq_false_of_ne h, if_neg h]

theorem lookup_assign (formatted : FieldErrors) (messages : List String) (other : String) :
    (formatted.assign path messages).lookup other =
      if other = path then some messages else formatted.lookup other := by
  induction formatted with
  | nil => exact lookup_field _ _ _
  | cons field formatted ih =>
      rw [assign]
      by_cases hfield : field.1 = path
      · rw [if_pos hfield, lookup_field, lookup_field, hfield]
        by_cases h : other = path
        · rw [if_pos h, if_pos h]
        · rw [if_neg h, if_neg h, if_neg h]
      · rw [if_neg hfield, lookup_field, lookup_field, ih]
        by_cases h : other = path
        · rw [if_neg fun heq => hfield (heq.symm.trans h), if_pos h, if_pos h]
        · rw [if_neg h, if_neg h]

theorem assign_paths (formatted : FieldErrors) (messages : List String) (other : String) :
    other ∈ (formatted.assign path messages).map (·.1) ↔
      other = path ∨ other ∈ formatted.map (·.1) := by
  induction formatted with
  | nil => simp [assign]
  | cons field formatted ih =>
      rw [assign]
      by_cases hfield : field.1 = path
      · simp [hfield]
      · rw [if_neg hfield, List.map_cons, List.mem_cons, ih, List.map_cons, List.mem_cons]
        exact or_left_comm

theorem Distinct.assign (h : Distinct formatted) (messages : List String) :
    Distinct (formatted.assign path messages) := by
  induction formatted with
  | nil => exact List.nodup_singleton _
  | cons field formatted ih =>
      obtain ⟨hnew, hrest⟩ := List.nodup_cons.1 h
      rw [FieldErrors.assign]
      by_cases hfield : field.1 = path
      · rw [if_pos hfield]
        exact List.nodup_cons.2 ⟨hfield ▸ hnew, hrest⟩
      · rw [if_neg hfield]
        refine List.nodup_cons.2 ⟨fun hmem => ?_, ih hrest⟩
        rcases (assign_paths formatted messages field.1).1 hmem with heq | hmem
        · exact hfield heq
        · exact hnew hmem

theorem Distinct.assignAll (h : Distinct formatted) (fields : FieldErrors) :
    Distinct (formatted.assignAll fields) := by
  induction fields generalizing formatted with
  | nil => exact h
  | cons field fields ih => exact ih (h.assign field.2)

theorem lookup_assignAll (formatted fields : FieldErrors) (path : String) :
    (formatted.assignAll fields).lookup path =
      (fields.reverse.lookup path).or (formatted.lookup path) := by
  induction fields generalizing formatted with
  | nil => rfl
  | cons field fields ih =>
      rw [assignAll, List.foldl_cons]
      refine (ih (formatted.assign field.1 field.2)).trans ?_
      rw [lookup_assign, List.reverse_cons, List.lookup_append, Option.or_assoc, lookup_field]
      by_cases h : path = field.1
      · rw [if_pos h, if_pos h, Option.some_or]
      · rw [if_neg h, if_neg h, List.lookup_nil, Option.none_or]

/-- Where no path occurs twice, the order does not matter. -/
theorem lookup_reverse (h : Distinct fields) (path : String) :
    fields.reverse.lookup path = fields.lookup path := by
  induction fields with
  | nil => rfl
  | cons field fields ih =>
      obtain ⟨hnew, hrest⟩ := List.nodup_cons.1 h
      rw [List.reverse_cons, List.lookup_append, ih hrest, lookup_field, lookup_field]
      by_cases hpath : path = field.1
      · have hnone : fields.lookup path = none := by
          refine List.lookup_eq_none_iff.2 fun entry hentry => bne_iff_ne.2 fun heq => hnew ?_
          exact List.mem_map.2 ⟨entry, hentry, heq.symm.trans hpath⟩
        rw [hnone, if_pos hpath, if_pos hpath, Option.none_or]
      · rw [if_neg hpath, if_neg hpath, List.lookup_nil, Option.or_none]

end FieldErrors

open FieldErrors

theorem formatLoop_distinct (errors : List ValidationError) (parentPath : String) :
    ∀ formatted, Distinct formatted → Distinct (formatLoop errors parentPath formatted) := by
  induction errors, parentPath using reports.induct with
  | case1 parentPath =>
      intro formatted h
      rw [formatLoop]
      exact h
  | case2 property constraints children errors parentPath ihchildren iherrors =>
      intro formatted h
      rw [formatLoop]
      refine iherrors _ ?_
      have hnode : Distinct (formatted.assignConstraints (pathOf parentPath property)
          constraints) := by
        cases constraints with
        | none => exact h
        | some constraints => exact h.assign _
      split
      · exact hnode
      · exact hnode.assignAll _

/-- The messages under a path are those of the last node with this path. -/
theorem lookup_formatLoop (errors : List ValidationError) (parentPath path : String) :
    ∀ formatted, (formatLoop errors parentPath formatted).lookup path =
      ((reports errors parentPath).reverse.lookup path).or (formatted.lookup path) := by
  induction errors, parentPath using reports.induct with
  | case1 parentPath =>
      intro formatted
      rw [formatLoop, reports]
      rfl
  | case2 property constraints children errors parentPath ihchildren iherrors =>
      intro formatted
      have hnode : (formatted.assignConstraints (pathOf parentPath property)
          constraints).lookup path = ((constraints.map fun constraints =>
            (pathOf parentPath property, constraints.map (·.2))).toList.reverse.lookup path).or
              (formatted.lookup path) := by
        cases constraints with
        | none => rfl
        | some constraints =>
            refine (lookup_assign _ _ _).trans ?_
            rw [Option.map_some, Option.toList_some, List.reverse_singleton, lookup_field]
            by_cases h : path = pathOf parentPath property
            · rw [if_pos h, if_pos h, Option.some_or]
            · rw [if_neg h, if_neg h, List.lookup_nil, Option.none_or]
      have hchildren : ∀ formatted : FieldErrors, (if children.isEmpty = true then formatted
          else formatted.assignAll (formatLoop children (pathOf parentPath property) [])).lookup
            path = ((reports children (pathOf parentPath property)).reverse.lookup path).or
              (formatted.lookup path) := by
        intro formatted
        by_cases hempty : children.isEmpty = true
        · rw [if_pos hempty, List.isEmpty_iff.1 hempty, reports]
          rfl
        · rw [if_neg hempty, lookup_assignAll,
            lookup_reverse (formatLoop_distinct _ _ [] List.nodup_nil), ihchildren [],
            List.lookup_nil, Option.or_none]
      rw [formatLoop, iherrors, hchildren, hnode, reports, List.reverse_append,
        List.reverse_append, List.lookup_append, List.lookup_append, Option.or_assoc,
        Option.or_assoc]

/-! ### The filter -/

/-- A value in the response of an exception, as far as the filter tells it apart. -/
inductive Payload where
  | string (value : String)
  | array (values : List Payload)
  | object (fields : List (String × Payload))
  | other

/-- `HttpException`: `getStatus`, `getResponse` and `message`. -/
structure HttpException where
  status : ℕ
  response : String ⊕ List (String × Payload)
  message : String

/-- What is thrown: an `HttpException` or anything else. -/
inductive Exception where
  | http (exception : HttpException)
  | unknown

structure ErrorBody where
  statusCode : ℕ
  code : String
  message : String
  errors : Option FieldErrors
  deriving DecidableEq

/-- The body with its status, and the `Retry-After` header. -/
structure ErrorResponse where
  body : ErrorBody
  retryAfter : Option String
  deriving DecidableEq

namespace ApiExceptionFilter

def codeFromStatus (statusCode : ℕ) : String :=
  if statusCode = 422 then "VALIDATION_ERROR"
  else if statusCode = 500 then "INTERNAL_SERVER_ERROR"
  else "HTTP_ERROR"

def stringOf? : Payload → Option String
  | .string value => some value
  | _ => none

def messagesOf? : Payload → Option (List String)
  | .array values => values.mapM stringOf?
  | _ => none

/-- `isFieldErrors`, with the errors when it holds. -/
def fieldErrors? : Option Payload → Option FieldErrors
  | some (.object fields) => fields.mapM fun field =>
      (messagesOf? field.2).map fun messages => (field.1, messages)
  | _ => none

def payloadCode (statusCode : ℕ) : Option Payload → String
  | some (.string code) => code
  | _ => codeFromStatus statusCode

def payloadMessage (exceptionMessage : String) : Option Payload → String
  | some (.string message) => message
  | some (.array _) => "Validation failed."
  | _ => exceptionMessage

def toErrorBody : Exception → ErrorBody
  | .unknown => ⟨500, "INTERNAL_SERVER_ERROR", "Internal server error.", none⟩
  | .http ⟨statusCode, .inl message, _⟩ => ⟨statusCode, codeFromStatus statusCode, message, none⟩
  | .http ⟨statusCode, .inr payload, exceptionMessage⟩ =>
      ⟨statusCode, payloadCode statusCode (payload.lookup "code"),
        payloadMessage exceptionMessage (payload.lookup "message"),
        if statusCode = 422 then fieldErrors? (payload.lookup "errors") else none⟩

def respond (exception : Exception) : ErrorResponse :=
  let body := toErrorBody exception
  ⟨body, if body.code = "ACCOUNT_TEMPORARILY_LOCKED" then some "3600" else none⟩

end ApiExceptionFilter

open ApiExceptionFilter

/-- A record of messages as a payload. -/
def ofFieldErrors (fields : FieldErrors) : Payload :=
  .object (fields.map fun field => (field.1, .array (field.2.map .string)))

def exceptionFactory (errors : List ValidationError) : HttpException where
  status := 422
  response := .inr [("code", .string "VALIDATION_ERROR"), ("message", .string "Validation failed."),
    ("errors", ofFieldErrors (formatValidationErrors errors ""))]
  message := "Validation failed."

theorem messagesOf?_strings (messages : List String) :
    messagesOf? (.array (messages.map .string)) = some messages := by
  rw [messagesOf?]
  induction messages with
  | nil => rfl
  | cons message messages ih =>
      rw [List.map_cons, List.mapM_cons, ih]
      rfl

theorem fieldErrors?_ofFieldErrors (fields : FieldErrors) :
    fieldErrors? (some (ofFieldErrors fields)) = some fields := by
  rw [ofFieldErrors, fieldErrors?]
  induction fields with
  | nil => rfl
  | cons field fields ih =>
      rw [List.map_cons, List.mapM_cons, ih, messagesOf?_strings]
      rfl

/-- A request that the validation pipe refuses is answered with the messages of the refused
fields: under each path those of the last node of the tree with this path, and no others. No
path is `__proto__`, which the pipe does not let through. -/
theorem validation_answer (errors : List ValidationError) :
    ∃ fields : FieldErrors, Distinct fields ∧
      respond (.http (exceptionFactory errors)) =
        ⟨⟨422, "VALIDATION_ERROR", "Validation failed.", some fields⟩, none⟩ ∧
      ∀ path, fields.lookup path = (reports errors "").reverse.lookup path := by
  refine ⟨formatValidationErrors errors "", formatLoop_distinct _ _ [] List.nodup_nil, ?_,
    fun path => ?_⟩
  · have hbody : toErrorBody (.http (exceptionFactory errors)) =
        ⟨422, "VALIDATION_ERROR", "Validation failed.",
          fieldErrors? (some (ofFieldErrors (formatValidationErrors errors "")))⟩ := rfl
    rw [respond, hbody, fieldErrors?_ofFieldErrors]
    rfl
  · rw [formatValidationErrors, lookup_formatLoop, List.lookup_nil, Option.or_none]

/-! ### The errors of the services -/

/-- The exception of an error; what is no `HttpException` is unknown to the filter. -/
def exceptionOf : Auth.AuthError → Exception
  | .http status code message retryAfter errors =>
      .http ⟨status, .inr ([("code", .string code), ("message", .string message)] ++
        (retryAfter.map fun _ => ("retryAfter", Payload.other)).toList ++
        if errors = [] then [] else [("errors", ofFieldErrors errors)]), message⟩
  | _ => .unknown

/-- An error of the services is answered with its status, code and message, and with its
fields when it is a rejected input. -/
theorem respond_http (status : ℕ) (code message : String) (retryAfter : Option ℕ)
    (errors : FieldErrors) :
    respond (exceptionOf (.http status code message retryAfter errors)) =
      ⟨⟨status, code, message, if status = 422 ∧ errors ≠ [] then some errors else none⟩,
        if code = "ACCOUNT_TEMPORARILY_LOCKED" then some "3600" else none⟩ := by
  have hbody : toErrorBody (exceptionOf (.http status code message retryAfter errors)) =
      ⟨status, code, message, if status = 422 ∧ errors ≠ [] then some errors else none⟩ := by
    by_cases hempty : errors = []
    · cases retryAfter <;>
        simp [exceptionOf, toErrorBody, payloadCode, payloadMessage, List.lookup_cons, hempty,
          fieldErrors?]
    · cases retryAfter <;>
        simp [exceptionOf, toErrorBody, payloadCode, payloadMessage, List.lookup_cons, hempty,
          fieldErrors?_ofFieldErrors]
  rw [respond, hbody]

/-- The header of a locked account is the time that the error names. -/
theorem respond_locked : (respond (exceptionOf Auth.accountTemporarilyLockedException)).retryAfter =
    some (toString Auth.LOGIN_LOCK_RETRY_AFTER_SECONDS) := by
  rw [Auth.accountTemporarilyLockedException, respond_http, if_pos rfl]
  decide

end Http

end Shortlink
