import Replay.Text

namespace Replay

namespace Canvas

/-- The id of the canvas. -/
def standardId : Text := "game-canvas"

/-- The document around a canvas with the given id. -/
def document (id : Text) : Text :=
  Text.join "\n" [
    "<!doctype html>",
    "<html>",
    "  <head>",
    "    <meta charset=\"utf-8\" />",
    "    <style>",
    "      html, body \x7b",
    "        margin: 0;",
    "        width: 100%;",
    "        height: 100%;",
    "        background: #020617;",
    "      \x7d",
    "      #" ++ id ++ " \x7b",
    "        width: 100vw;",
    "        height: 100vh;",
    "        display: block;",
    "      \x7d",
    "    </style>",
    "  </head>",
    "  <body>",
    "    <canvas id=\"" ++ id ++ "\"></canvas>",
    "  </body>",
    "</html>"]

end Canvas

end Replay
