import NetForge.Python.Lines
import NetForge.Core.Result
import Mathlib.Data.List.Basic
import Mathlib.Tactic.Common

/-! # The routing table

`parse_routing_table` and `inspect_routing_table` of `diagnostics/host/routing.py`. On Linux
the gateway and the interface are overwritten by every default line that names one, each on its
own; the Windows branch keeps the first default route it meets.
-/

namespace NetForge.Diagnostics

open NetForge.Core NetForge.Python

structure RoutingTable where
  defaultGateway : Option String := none
  defaultInterface : Option String := none
  routeCount : Nat := 0
  deriving DecidableEq

/-- `parts[parts.index(word) + 1]`, where there is such a part. -/
def following (word : String) : List String → Option String
  | [] => none
  | part :: parts => if part = word then parts.head? else following word parts

def linuxLine (table : RoutingTable) (line : String) : RoutingTable :=
  match splitWords (strip line) with
  | [] => table
  | part :: parts =>
      let counted := { table with routeCount := table.routeCount + 1 }
      if part = "default" then
        { counted with
          defaultGateway := (following "via" (part :: parts)).or table.defaultGateway
          defaultInterface := (following "dev" (part :: parts)).or table.defaultInterface }
      else counted

/-- The state of the Windows loop: inside the active routes or not. -/
abbrev WindowsState := Bool × RoutingTable

def windowsLine (state : WindowsState) (line : String) : WindowsState :=
  let lineStr := strip line
  let table := state.2
  if containsText "Active Routes:" lineStr then (true, table)
  else if !state.1 then state
  else if startsWithText "=" lineStr || containsText "Persistent Routes:" lineStr ||
      containsText "IPv6 Route Table" lineStr then (false, table)
  else
    match splitWords lineStr with
    | dest :: netmask :: gateway :: iface :: _ :: _ =>
        if dest = "Network" then (true, table)
        else
          let counted := { table with routeCount := table.routeCount + 1 }
          if dest = "0.0.0.0" ∧ netmask = "0.0.0.0" ∧ table.defaultGateway = none then
            (true, { counted with
              defaultGateway := some gateway
              defaultInterface := some iface })
          else (true, counted)
    | _ => (true, table)

/-- The lines of `netstat -rn`, before the IPv4 table and in it. -/
def darwinLines : Bool → RoutingTable → List String → RoutingTable
  | _, table, [] => table
  | inIpv4, table, line :: lines =>
      let lineStr := strip line
      if containsText "Internet:" lineStr then darwinLines true table lines
      else if !inIpv4 then darwinLines false table lines
      else if containsText "Internet6:" lineStr then table
      else
        match splitWords lineStr with
        | dest :: gateway :: iface :: parts =>
            if startsWithText "Destination" dest then darwinLines true table lines
            else
              let counted := { table with routeCount := table.routeCount + 1 }
              let next :=
                if dest = "default" then
                  { counted with
                    defaultGateway := some gateway
                    defaultInterface := (iface :: parts).getLast? }
                else counted
              darwinLines true next lines
        | _ => darwinLines true table lines

def parseRoutingTable (system output : String) : RoutingTable :=
  if system = "windows" then ((splitLines output).foldl windowsLine (false, {})).2
  else if system = "linux" then (splitLines output).foldl linuxLine {}
  else if system = "darwin" then darwinLines false {} (splitLines output)
  else {}

example : parseRoutingTable "linux"
    "default via 10.0.0.1 dev eth0 metric 100\n10.0.0.0/24 dev eth0\n" =
      ⟨some "10.0.0.1", some "eth0", 2⟩ := by decide +kernel

/-! ## Default lines -/

structure DefaultRoute where
  gateway : Option String
  device : Option String
  deriving DecidableEq

def defaultRoute? (line : String) : Option DefaultRoute :=
  match splitWords (strip line) with
  | [] => none
  | part :: parts =>
      if part = "default" then
        some ⟨following "via" (part :: parts), following "dev" (part :: parts)⟩
      else none

def defaultRoutes (output : String) : List DefaultRoute :=
  (splitLines output).filterMap defaultRoute?

/-- The last value of a list, the head counting after all others. -/
theorem or_getLast?_cons {α β : Type} (f : α → Option β) (x : α) (xs : List α)
    (base : Option β) :
    (xs.filterMap f).getLast?.or ((f x).or base) =
      ((x :: xs).filterMap f).getLast?.or base := by
  cases hx : f x with
  | none =>
      rw [List.filterMap_cons_none hx]
      rfl
  | some y =>
      rw [List.filterMap_cons_some hx, List.getLast?_cons]
      cases (xs.filterMap f).getLast? <;> rfl

theorem linuxLine_eq (table : RoutingTable) (line : String) :
    (linuxLine table line).defaultGateway =
        ((defaultRoute? line).bind (·.gateway)).or table.defaultGateway ∧
      (linuxLine table line).defaultInterface =
        ((defaultRoute? line).bind (·.device)).or table.defaultInterface := by
  unfold linuxLine defaultRoute?
  cases splitWords (strip line) with
  | nil => exact ⟨rfl, rfl⟩
  | cons part parts =>
      by_cases h : part = "default"
      · simp only [if_pos h]
        exact ⟨rfl, rfl⟩
      · simp only [if_neg h]
        exact ⟨rfl, rfl⟩

/-- The loop leaves the last gateway and the last device that a default line names. -/
theorem linuxLines_eq (lines : List String) (table : RoutingTable) :
    (lines.foldl linuxLine table).defaultGateway =
        (((lines.filterMap defaultRoute?).filterMap (·.gateway)).getLast?).or
          table.defaultGateway ∧
      (lines.foldl linuxLine table).defaultInterface =
        (((lines.filterMap defaultRoute?).filterMap (·.device)).getLast?).or
          table.defaultInterface := by
  induction lines generalizing table with
  | nil => exact ⟨rfl, rfl⟩
  | cons line lines ih =>
      obtain ⟨hgateway, hdevice⟩ := ih (linuxLine table line)
      obtain ⟨hgateway', hdevice'⟩ := linuxLine_eq table line
      rw [List.foldl_cons, hgateway, hdevice, hgateway', hdevice']
      cases hroute : defaultRoute? line with
      | none =>
          rw [List.filterMap_cons_none hroute]
          exact ⟨rfl, rfl⟩
      | some route =>
          rw [List.filterMap_cons_some hroute]
          exact ⟨or_getLast?_cons (·.gateway) route _ _, or_getLast?_cons (·.device) route _ _⟩

theorem parseRoutingTable_linux (output : String) :
    (parseRoutingTable "linux" output).defaultGateway =
        ((defaultRoutes output).filterMap (·.gateway)).getLast? ∧
      (parseRoutingTable "linux" output).defaultInterface =
        ((defaultRoutes output).filterMap (·.device)).getLast? := by
  obtain ⟨hgateway, hdevice⟩ := linuxLines_eq (splitLines output) {}
  rw [Option.or_none] at hgateway hdevice
  exact ⟨hgateway, hdevice⟩

/-- The first default route of the output that has a gateway, between those listed before it
and after it. -/
structure FirstRoute (output : String) (before : List DefaultRoute) (route : DefaultRoute)
    (after : List DefaultRoute) : Prop where
  listed : defaultRoutes output = before ++ route :: after
  before_none : ∀ r ∈ before, r.gateway = none
  gateway_some : route.gateway.isSome

/-- The other default lines name nothing else: the last gateway and the last device after the
route are its own, and where it has no device the lines before it have none. -/
structure OthersAgree (before : List DefaultRoute) (route : DefaultRoute)
    (after : List DefaultRoute) : Prop where
  gateway : ∀ g ∈ (after.filterMap (·.gateway)).getLast?, route.gateway = some g
  device : ∀ d ∈ (after.filterMap (·.device)).getLast?, route.device = some d
  before : route.device = none → ∀ r ∈ before, r.device = none

/-- Over `before ++ x :: after`, the last value is the one of `x` exactly when later values
agree with it, and where `x` has none there is none before it. -/
theorem getLast?_eq_middle {α β : Type} (f : α → Option β) (before : List α) (x : α)
    (after : List α) :
    ((before ++ x :: after).filterMap f).getLast? = f x ↔
      (∀ y ∈ (after.filterMap f).getLast?, f x = some y) ∧
        (f x = none → ∀ z ∈ before, f z = none) := by
  rw [List.filterMap_append, List.getLast?_append]
  have hlast := or_getLast?_cons f x after (before.filterMap f).getLast?
  rw [← hlast]
  cases hafter : (after.filterMap f).getLast? with
  | some y =>
      cases hx : f x with
      | none => simp
      | some w => simp [eq_comm]
  | none =>
      cases hx : f x with
      | none =>
          rw [Option.none_or, Option.none_or, List.getLast?_eq_none_iff, List.filterMap_eq_nil_iff]
          simp
      | some w => simp

theorem FirstRoute.parsed_iff {output : String} {before after : List DefaultRoute}
    {route : DefaultRoute} (h : FirstRoute output before route after) :
    ((parseRoutingTable "linux" output).defaultGateway = route.gateway ∧
        (parseRoutingTable "linux" output).defaultInterface = route.device) ↔
      OthersAgree before route after := by
  obtain ⟨hgateway, hdevice⟩ := parseRoutingTable_linux output
  rw [hgateway, hdevice, h.listed, getLast?_eq_middle, getLast?_eq_middle]
  constructor
  · intro ⟨⟨hafter, _⟩, hdev, hbefore⟩
    exact ⟨hafter, hdev, hbefore⟩
  · intro hagree
    exact ⟨⟨hagree.gateway, fun _ => h.before_none⟩, hagree.device, hagree.before⟩

/-- Gateway and interface are those of the first default route with a gateway exactly when the
other default lines do not name others. -/
theorem parseRoutingTable_first_iff (output : String) :
    (∀ before route after, FirstRoute output before route after →
        (parseRoutingTable "linux" output).defaultGateway = route.gateway ∧
          (parseRoutingTable "linux" output).defaultInterface = route.device) ↔
      ∀ before route after, FirstRoute output before route after →
        OthersAgree before route after := by
  constructor
  · intro hclaim before route after h
    exact h.parsed_iff.mp (hclaim before route after h)
  · intro hagree before route after h
    exact h.parsed_iff.mpr (hagree before route after h)

/-- The gateway of the first default line beside the interface of the second. -/
theorem default_lines_mixed :
    (¬ ∀ (output : String) (before : List DefaultRoute) (route : DefaultRoute)
        (after : List DefaultRoute), FirstRoute output before route after →
          (parseRoutingTable "linux" output).defaultGateway = route.gateway ∧
            (parseRoutingTable "linux" output).defaultInterface = route.device) ∧
      parseRoutingTable "linux"
          "default via 192.168.1.1 dev eth0 metric 100\ndefault dev wg0 scope link metric 200\n" =
        ⟨some "192.168.1.1", some "wg0", 2⟩ := by
  have hparsed : parseRoutingTable "linux"
      "default via 192.168.1.1 dev eth0 metric 100\ndefault dev wg0 scope link metric 200\n" =
        ⟨some "192.168.1.1", some "wg0", 2⟩ := by
    decide +kernel
  refine ⟨?_, hparsed⟩
  intro hclaim
  have hfirst := hclaim
    "default via 192.168.1.1 dev eth0 metric 100\ndefault dev wg0 scope link metric 200\n"
    [] ⟨some "192.168.1.1", some "eth0"⟩ [⟨none, some "wg0"⟩]
    ⟨by decide +kernel, by simp, rfl⟩
  rw [hparsed] at hfirst
  exact absurd hfirst.2 (by decide)

/-! ## The guard of the Windows branch -/

theorem windowsLine_keeps {state : WindowsState} (h : state.2.defaultGateway ≠ none)
    (line : String) :
    (windowsLine state line).2.defaultGateway = state.2.defaultGateway ∧
      (windowsLine state line).2.defaultInterface = state.2.defaultInterface := by
  unfold windowsLine
  simp only
  split_ifs
  · exact ⟨rfl, rfl⟩
  · exact ⟨rfl, rfl⟩
  · exact ⟨rfl, rfl⟩
  · split
    · split_ifs with _ hdefault
      · exact ⟨rfl, rfl⟩
      · exact absurd hdefault.2.2 h
      · exact ⟨rfl, rfl⟩
    · exact ⟨rfl, rfl⟩

/-- Whatever lines follow, gateway and interface are those of one line. -/
theorem windowsLines_keep {state : WindowsState} (h : state.2.defaultGateway ≠ none)
    (lines : List String) :
    (lines.foldl windowsLine state).2.defaultGateway = state.2.defaultGateway ∧
      (lines.foldl windowsLine state).2.defaultInterface = state.2.defaultInterface := by
  induction lines generalizing state with
  | nil => exact ⟨rfl, rfl⟩
  | cons line lines ih =>
      obtain ⟨hgateway, hinterface⟩ := windowsLine_keeps h line
      have hnext : (windowsLine state line).2.defaultGateway ≠ none := by
        rw [hgateway]
        exact h
      obtain ⟨hgateway', hinterface'⟩ := ih hnext
      rw [List.foldl_cons, hgateway', hinterface']
      exact ⟨hgateway, hinterface⟩

end NetForge.Diagnostics
