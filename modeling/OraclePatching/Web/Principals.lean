import Mathlib.Data.List.DropRight
import OraclePatching.Controller.Records
import OraclePatching.Lib.Names

/-!
# `Web.Principals` — who may do what (`webapp/auth.py` with principals configured)

The registry of principals is one JSON file, read again for every decision. A credential names a principal when its
digest is that of exactly one entry; a principal may perform an action when one of its roles is among those
`ACTION_ROLES` lists for it. A registry that is missing, unreadable or ill formed authenticates nobody.

The lab mode, in which one shared token opens every route, is left out: it has no principals.
-/

namespace OraclePatching.Web

/-! ## Python values -/

/-- What `json.loads` makes of a document: of a repeated key only the last value is there. -/
inductive Value where
  | null
  | bool (b : Bool)
  | int (i : Int)
  | float (q : Rat)
  | str (s : String)
  | list (items : List Value)
  | dict (fields : List (String × Value))

/-- `str.isspace` on one character. -/
def isSpace (c : Char) : Bool :=
  c.toNat ∈ [0x20, 0x85, 0xa0, 0x1680, 0x2028, 0x2029, 0x202f, 0x205f, 0x3000] ||
    (0x09 ≤ c.toNat && c.toNat ≤ 0x0d) || (0x1c ≤ c.toNat && c.toNat ≤ 0x1f) ||
    (0x2000 ≤ c.toNat && c.toNat ≤ 0x200a)

def stripChars (cs : List Char) : List Char := (cs.dropWhile isSpace).rdropWhile isSpace

/-- `text.strip()`. -/
def strip (text : String) : String := String.ofList (stripChars text.toList)

theorem strip_strip (text : String) : strip (strip text) = strip text := by
  unfold strip
  rw [String.toList_ofList]
  congr 1
  show ((stripChars text.toList).dropWhile isSpace).rdropWhile isSpace = stripChars text.toList
  have hfront : (stripChars text.toList).dropWhile isSpace = stripChars text.toList := by
    rw [List.dropWhile_eq_self_iff]
    intro hlen
    have hlen' : 0 < (text.toList.dropWhile isSpace).length :=
      Nat.lt_of_lt_of_le hlen (List.rdropWhile_prefix _ _).length_le
    have hhead : (stripChars text.toList)[0] = (text.toList.dropWhile isSpace)[0] :=
      (List.rdropWhile_prefix isSpace (text.toList.dropWhile isSpace)).getElem hlen
    rw [hhead]
    exact List.dropWhile_eq_self_iff.mp (List.dropWhile_idempotent isSpace text.toList) hlen'
  rw [hfront]
  exact List.rdropWhile_idempotent isSpace _

/-- `f"{text!r}"` of a text without quotes and control characters. -/
def quoted (text : String) : String := "'" ++ text ++ "'"

/-! ## Roles and actions -/

inductive Role where
  | viewer
  | requester
  | approver
  | operator
  | admin
  deriving DecidableEq, Repr

def Role.name : Role → String
  | .viewer => "viewer"
  | .requester => "requester"
  | .approver => "approver"
  | .operator => "operator"
  | .admin => "admin"

/-- The roles some action lists, with their names. -/
def allowedRoles : List (String × Role) :=
  [("viewer", .viewer), ("requester", .requester), ("approver", .approver), ("operator", .operator),
    ("admin", .admin)]

inductive Action where
  | read
  | create
  | approve
  | authorize
  | dispatch
  | execute
  | agent
  deriving DecidableEq, Repr

def Action.name : Action → String
  | .read => "read"
  | .create => "create"
  | .approve => "approve"
  | .authorize => "authorize"
  | .dispatch => "dispatch"
  | .execute => "execute"
  | .agent => "agent"

/-- `ACTION_ROLES`. -/
def actionRoles : Action → List Role
  | .read => [.viewer, .requester, .approver, .operator, .admin]
  | .create => [.requester, .admin]
  | .approve => [.approver, .admin]
  | .authorize => [.operator, .admin]
  | .dispatch => [.operator, .admin]
  | .execute => [.operator, .admin]
  | .agent => [.operator, .admin]

/-- `sorted(roles)` as Python prints it: the names in order, each once. -/
def listed (roles : List Role) : String :=
  let names := ([.admin, .approver, .operator, .requester, .viewer] : List Role).filter (· ∈ roles)
  "[" ++ ", ".intercalate (names.map fun r => quoted r.name) ++ "]"

/-! ## The registry -/

structure Entry where
  actor : String
  roles : List Role
  tokenSha256 : Option String

/-- What stands at the path of the registry. -/
inductive Registry where
  | missing
  | unreadable
  | document (v : Value)

/-- `roles` of an entry: a list that is not empty, of names of roles. -/
def readRoles : Option Value → Option (List Role)
  | some (.list (item :: items)) =>
      (item :: items).mapM fun v =>
        match v with
        | .str r => allowedRoles.lookup r
        | _ => none
  | _ => none

/-- `token_sha256` of an entry: absent, or a digest no earlier entry has. -/
def readDigest (seen : List Entry) : Option Value → Option (Option String)
  | none | some .null => some none
  | some (.str digest) =>
      if sha256Shape digest && !(seen.map Entry.tokenSha256).contains (some digest) then some (some digest) else none
  | some _ => none

/-- The body of the loop of `_load_entries`, with the entries before this one. -/
def loadEntry (required : Bool) (seen : List Entry) : Value → Ctl Entry
  | .dict fields =>
      match fields.lookup "actor" with
      | some (.str raw) => do
          let actor := strip raw
          ensure (actor ≠ "" ∧ actor ∉ seen.map Entry.actor) 503 "Invalid or duplicate principal identity/roles"
          let roles ← need (readRoles (fields.lookup "roles")) 503 "Invalid or duplicate principal identity/roles"
          let digest ← need (readDigest seen (fields.lookup "token_sha256")) 503
            "Principal token digests must be unique SHA-256 values"
          ensure (required = true → digest ≠ none) 503 "Every authenticated principal requires token_sha256"
          .ok ⟨actor, roles, digest⟩
      | _ => refuse 503 "Malformed principal entry"
  | _ => refuse 503 "Malformed principal entry"

/-- `_load_entries`. -/
def loadEntries (registry : Registry) (required : Bool) : Ctl (List Entry) :=
  match registry with
  | .missing => refuse 503 "Configured principal registry is missing or unsafe"
  | .unreadable => refuse 503 "Configured principal registry is unreadable"
  | .document (.dict fields) =>
      match fields.lookup "principals" with
      | some (.list (item :: items)) =>
          (item :: items).foldlM (fun seen v => do .ok (seen ++ [← loadEntry required seen v])) []
      | _ => refuse 503 "Principal registry must contain a nonempty principals array"
  | .document _ => refuse 503 "Principal registry must contain a nonempty principals array"

/-- `load_principals`. -/
def loadPrincipals (registry : Registry) : Ctl (String → Option (List Role)) := do
  let entries ← loadEntries registry false
  .ok (entries.foldl (fun out e => setName out e.actor (some e.roles)) fun _ => none)

/-! ## Decisions -/

/-- `extract_bearer`. -/
def extractBearer : Option String → Option String
  | none => none
  | some header =>
      let cs := stripChars header.toList
      let scheme := String.ofList (cs.takeWhile (!isSpace ·))
      let token := String.ofList (stripChars (cs.dropWhile (!isSpace ·)))
      if scheme.toLower = "bearer" ∧ token ≠ "" then some token else none

/-- `require_api_auth`: the principal of a credential. -/
def requireApiAuth (sha256 : String → String) (registry : Registry) (authorization : Option String) : Ctl String := do
  let provided := extractBearer authorization
  let entries ← loadEntries registry true
  let digest := sha256 (provided.getD "")
  match provided, (entries.filter (·.tokenSha256 = some digest)).map Entry.actor with
  | some _, [actor] => .ok actor
  | _, _ => refuse 401 "Missing or invalid principal credential"

/-- `require_role`. -/
def requireRole (registry : Registry) (actor : String) (action : Action) : Ctl Unit := do
  ensure (strip actor ≠ "") 403 "actor is required when RBAC is enabled"
  let principals ← loadPrincipals registry
  let roles ← need (principals (strip actor)) 403 ("actor " ++ quoted actor ++ " is not a configured principal")
  ensure (∃ r ∈ roles, r ∈ actionRoles action) 403
    ("actor " ++ quoted actor ++ " lacks role for action " ++ action.name ++ " (has " ++ listed roles ++
      ", needs one of " ++ listed (actionRoles action) ++ ")")

/-! ## What a decision says -/

/-- **The principal holds a role permitting the action**: some entry of the registry names it with such a role. -/
def Holds (registry : Registry) (principal : String) (action : Action) : Prop :=
  ∃ entries, loadEntries registry false = .ok entries ∧
    ∃ e ∈ entries, e.actor = principal ∧ ∃ r ∈ e.roles, r ∈ actionRoles action

instance (registry : Registry) (principal : String) (action : Action) : Decidable (Holds registry principal action) :=
  match h : loadEntries registry false with
  | .ok entries =>
      decidable_of_iff (∃ e ∈ entries, e.actor = principal ∧ ∃ r ∈ e.roles, r ∈ actionRoles action)
        ⟨fun he => ⟨entries, h, he⟩, fun ⟨es, hes, he⟩ => by rw [h] at hes; injection hes with hes; exact hes ▸ he⟩
  | .error _ => .isFalse fun ⟨es, hes, _⟩ => by rw [h] at hes; exact nomatch hes

theorem Holds.mono {registry : Registry} {principal : String} {action action' : Action}
    (hsub : actionRoles action ⊆ actionRoles action') (h : Holds registry principal action) :
    Holds registry principal action' := by
  obtain ⟨entries, hload, e, he, hactor, r, hr, hrole⟩ := h
  exact ⟨entries, hload, e, he, hactor, r, hr, hsub hrole⟩

/-- The names `load_principals` knows come from the entries. -/
theorem mem_of_foldl_setName {entries : List Entry} {out : String → Option (List Role)} {actor : String}
    {roles : List Role} (h : entries.foldl (fun out e => setName out e.actor (some e.roles)) out actor = some roles) :
    (∃ e ∈ entries, e.actor = actor ∧ e.roles = roles) ∨ out actor = some roles := by
  induction entries generalizing out with
  | nil => exact .inr h
  | cons e es ih =>
      rcases ih h with ⟨e', he', hactor, hroles⟩ | hout
      · exact .inl ⟨e', List.mem_cons_of_mem _ he', hactor, hroles⟩
      · change setName out e.actor (some e.roles) actor = some roles at hout
        by_cases hname : actor = e.actor
        · subst hname
          rw [setName_self] at hout
          exact .inl ⟨e, List.mem_cons_self, rfl, Option.some.inj hout⟩
        · rw [setName_ne _ _ hname] at hout
          exact .inr hout

theorem requireRole_holds {registry : Registry} {actor : String} {action : Action}
    (h : requireRole registry actor action = .ok ()) : Holds registry (strip actor) action := by
  unfold requireRole at h
  obtain ⟨-, h⟩ := ensure_bind_ok.mp h
  obtain ⟨principals, hload, h⟩ := bind_ok.mp h
  obtain ⟨roles, hroles, h⟩ := need_bind_ok.mp h
  obtain ⟨r, hr, hrole⟩ := ensure_ok.mp h
  unfold loadPrincipals at hload
  obtain ⟨entries, hentries, hout⟩ := bind_ok.mp hload
  injection hout with hout
  subst hout
  rcases mem_of_foldl_setName hroles with ⟨e, he, hactor, heroles⟩ | hnone
  · exact ⟨entries, hentries, e, he, hactor, r, heroles ▸ hr, hrole⟩
  · exact nomatch hnone

/-- An entry carries a stripped name that is not empty. -/
theorem loadEntry_actor {required : Bool} {seen : List Entry} {v : Value} {e : Entry}
    (h : loadEntry required seen v = .ok e) : strip e.actor = e.actor ∧ e.actor ≠ "" := by
  unfold loadEntry at h
  split at h
  · split at h
    · rename_i raw _
      obtain ⟨hname, h⟩ := ensure_bind_ok.mp h
      obtain ⟨roles, _, h⟩ := need_bind_ok.mp h
      obtain ⟨digest, _, h⟩ := need_bind_ok.mp h
      obtain ⟨_, h⟩ := ensure_bind_ok.mp h
      injection h with h
      subst h
      exact ⟨strip_strip raw, hname.1⟩
    · exact absurd h refuse_ne_ok
  · exact absurd h refuse_ne_ok

theorem foldlM_entries {required : Bool} {items : List Value} {seen entries : List Entry}
    (hseen : ∀ e ∈ seen, strip e.actor = e.actor ∧ e.actor ≠ "")
    (h : items.foldlM (fun seen v => do .ok (seen ++ [← loadEntry required seen v])) seen
      = (.ok entries : Ctl (List Entry))) : ∀ e ∈ entries, strip e.actor = e.actor ∧ e.actor ≠ "" := by
  induction items generalizing seen with
  | nil =>
      injection h with h
      exact h ▸ hseen
  | cons v vs ih =>
      rw [List.foldlM_cons] at h
      obtain ⟨seen', hstep, h⟩ := bind_ok.mp h
      obtain ⟨e, hload, hput⟩ := bind_ok.mp hstep
      injection hput with hput
      refine ih ?_ h
      intro e' he'
      rw [← hput, List.mem_append, List.mem_singleton] at he'
      rcases he' with he' | rfl
      · exact hseen e' he'
      · exact loadEntry_actor hload

theorem loadEntries_actor {registry : Registry} {required : Bool} {entries : List Entry}
    (h : loadEntries registry required = .ok entries) : ∀ e ∈ entries, strip e.actor = e.actor ∧ e.actor ≠ "" := by
  unfold loadEntries at h
  split at h
  · exact absurd h refuse_ne_ok
  · exact absurd h refuse_ne_ok
  · split at h
    · exact foldlM_entries (fun _ he => absurd he List.not_mem_nil) h
    · exact absurd h refuse_ne_ok
  · exact absurd h refuse_ne_ok

/-- A principal that authenticated has a stripped name that is not empty. -/
theorem requireApiAuth_actor {sha256 : String → String} {registry : Registry} {authorization : Option String}
    {principal : String} (h : requireApiAuth sha256 registry authorization = .ok principal) :
    strip principal = principal ∧ principal ≠ "" := by
  unfold requireApiAuth at h
  obtain ⟨entries, hload, h⟩ := bind_ok.mp h
  dsimp only at h
  split at h
  · rename_i actor _ hmatch
    injection h with h
    subst h
    have hmem : actor ∈ (entries.filter (·.tokenSha256 = some (sha256 ((extractBearer authorization).getD "")))).map
        Entry.actor := by
      rw [hmatch]
      exact List.mem_singleton.mpr rfl
    obtain ⟨e, he, hactor⟩ := List.mem_map.mp hmem
    exact hactor ▸ loadEntries_actor hload e (List.mem_filter.mp he).1
  · exact absurd h refuse_ne_ok

end OraclePatching.Web
