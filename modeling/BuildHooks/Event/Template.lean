/-!
The template of the page that documents the events.
-/

namespace BuildHooks.Event

def templateLines : List String :=
  ["<!DOCTYPE html>",
   "<html>",
   "<head>",
   "<meta charset=\"utf-8\">",
   "<title>Team Services events</title>",
   "<style>",
   "body \x7b font-family: sans-serif; margin: 2em; \x7d",
   "table \x7b border-collapse: collapse; \x7d",
   "th, td \x7b border: 1px solid #ccc; padding: 0.5em; text-align: left; \x7d",
   "pre \x7b margin: 0; font-size: 0.85em; \x7d",
   "</style>",
   "</head>",
   "<body>",
   "<h1>Team Services events</h1>",
   "<p>",
   "This endpoint receives event notifications sent by Team Foundation Server or",
   "Visual Studio Team Services and reacts to them, for example by polling or",
   "scheduling the jobs that build the affected repository.",
   "</p>",
   "<p>",
   "Send events with <code>POST</code> to <code>\x7broot_url\x7d\x7burl_name\x7d/&lt;eventName&gt;</code>",
   "with a JSON object as the body. Event names are matched without regard to case.",
   "</p>",
   "<table>",
   "<tr>",
   "<th>Event</th>",
   "<th>Path</th>",
   "<th>Sample request body</th>",
   "</tr>",
   "\x7bevent_rows\x7d</table>",
   "</body>",
   "</html>"]

/-- The template. It has a place for the root, one for the rows and one for the base URL. -/
def template : String :=
  String.join (templateLines.map fun line => line ++ "\n")

end BuildHooks.Event
