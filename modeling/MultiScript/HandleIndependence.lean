/-
The handles of a registered function that makes script calls in its body: `S`,
its own stack, and one handle for each call. In Lua and Squirrel they share the
VM's stack, and are independent in the orders that `Lua.Allowed` and
`Squirrel.Allowed` name. In GameMonkey a handle has a thread of its own, and what
`GameMonkey.Allowed` asks is that the thread of `S` is left alive.
-/
import MultiScript.Handles.Lua
import MultiScript.Handles.Squirrel
import MultiScript.Handles.GameMonkey

namespace MultiScript

open Run Handles

end MultiScript
