import Outpost.Settings

/-!
# The default script

The template of the script that starts a listener on the remote host. It runs in the remote
directory, starts the listener class on the loopback interface, writes the chosen port as one line,
and stops when its input ends. It removes its directory when it exits.
-/

namespace Outpost

namespace Script

/-- The lines of the default template; the script waits `joinTimeout` milliseconds for its listener
to close. -/
def defaultLines (joinTimeout : Nat) : List String :=
  [
    "import \x7b readdirSync, rmSync \x7d from 'node:fs';",
    "import \x7b dirname, join \x7d from 'node:path';",
    "import \x7b fileURLToPath \x7d from 'node:url';",
    "",
    "const here = dirname(fileURLToPath(import.meta.url));",
    "process.chdir(here);",
    "",
    "process.on('exit', () => \x7b",
    "  try \x7b",
    "    rmSync(here, \x7b recursive: true, force: true \x7d);",
    "  \x7d catch \x7b",
    "    // already gone",
    "  \x7d",
    "\x7d);",
    "",
    "const purgeCaches = (dir) => \x7b",
    "  for (const entry of readdirSync(dir, \x7b withFileTypes: true \x7d)) \x7b",
    "    const path = join(dir, entry.name);",
    "    if (entry.isDirectory()) \x7b",
    "      if (entry.name === '.cache') rmSync(path, \x7b recursive: true, force: true \x7d);",
    "      else purgeCaches(path);",
    "    \x7d else if (entry.name.endsWith('.tsbuildinfo')) \x7b",
    "      rmSync(path, \x7b force: true \x7d);",
    "    \x7d",
    "  \x7d",
    "\x7d;",
    "try \x7b",
    "  purgeCaches(here);",
    "\x7d catch \x7b",
    "  // stale caches only slow the import down",
    "\x7d",
    "",
    "const \x7b $SERVER_CLASS$: ServerCls \x7d = await import('$SERVER_MODULE$');",
    "const \x7b $SERVICE_CLASS$: ServiceCls \x7d = await import('$SERVICE_MODULE$');",
    "",
    "let logger = undefined;",
    "$EXTRA_SETUP$",
    "",
    "const server = new ServerCls(ServiceCls, \x7b hostname: '127.0.0.1', port: 0, logger \x7d);",
    "await server.start();",
    "",
    "process.stdout.write(`$\x7bserver.port\x7d\\n`);",
    "",
    "let stopping = false;",
    "const shutdown = async () => \x7b",
    "  if (stopping) return;",
    "  stopping = true;",
    "  const joinTimeout = new Promise((resolve) => setTimeout(resolve, " ++ toString joinTimeout
      ++ ").unref());",
    "  await Promise.race([server.close(), joinTimeout]);",
    "  process.exit(0);",
    "\x7d;",
    "process.stdin.on('end', shutdown);",
    "process.stdin.on('close', shutdown);",
    "process.on('SIGTERM', shutdown);",
    "process.on('SIGHUP', shutdown);",
    "process.stdin.resume();"
  ]

/-- The default template, which waits for `Settings.joinTimeout`. -/
def defaultTemplate : String :=
  String.join ((defaultLines Settings.joinTimeout).map (· ++ "\n"))

end Script

end Outpost
