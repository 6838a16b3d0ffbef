import DevServer.Text.Basic

set_option autoImplicit false

namespace DevServer.LiveUpdate

def refreshShim : Text :=
  "window.$RefreshReg$ = () => \x7b\x7d;\nwindow.$RefreshSig$ = () => (type) => type;\n"

def clientHead : Text :=
  "// kindle live-update client\n(() => \x7b\n  const socket = new WebSocket('ws://' + location.hostname + ':"

def clientBody : List Text :=
  ["');",
   "",
   "  socket.addEventListener('message', async (event) => \x7b",
   "    let data;",
   "    try \x7b",
   "      data = JSON.parse(event.data);",
   "    \x7d catch \x7b",
   "      return;",
   "    \x7d",
   "",
   "    if (data.kind === 'reload') \x7b",
   "      location.reload();",
   "    \x7d else if (data.kind === 'update') \x7b",
   "      try \x7b",
   "        await import(data.path + '?t=' + Date.now());",
   "      \x7d finally \x7b",
   "        location.reload();",
   "      \x7d",
   "    \x7d",
   "  \x7d);",
   "",
   "  socket.addEventListener('close', () => \x7b",
   "    console.log('[kindle] live-update connection closed');",
   "  \x7d);",
   "\x7d)();",
   ""]

def clientScript (port : Nat) : Text := clientHead ++ Text.ofNat port ++ Text.join "\n" clientBody

end DevServer.LiveUpdate
